import HotelMs.GuestFigures
import HotelMs.OccupancyRuns
import HotelMs.Lib.Doubles
import Mathlib.Data.Finset.Prod
import Mathlib.Data.Int.Interval
import Mathlib.Algebra.BigOperators.Group.Finset.Basic
import Mathlib.Algebra.Order.BigOperators.Group.Finset

/-!
# The occupancy report as a rate

Of a stay the report counts every night, also those beyond the window, if it began
in the window, and none otherwise.
-/

namespace HotelMs

open Tables Queries HalfEven Doubles

/-- An infinity stands at `± 2 ^ 1024`, what is no number at 0. -/
structure DoubleFloat extends PyFloat where
  value : Carrier → ℚ
  value_ofRat : ∀ x, value (ofRat x) = double x
  value_percent : ∀ x, value (mul x (ofRat 100)) = double (value x * 100)
  value_round : ∀ x, value (round x 2) = double (halfEven (value x * 100) / 100)

def DoubleFloat.number (F : DoubleFloat) : PyNumber F.toPyFloat → ℚ
  | .int n => n
  | .float x => F.value x

def BookedActive (s : Store) : Prop :=
  ∀ b ∈ s.bookings.rows, b.Live → ∃ r ∈ s.rooms.rows, r.id = b.roomId ∧ r.isActive = true

/-! ### Nights -/

section

variable (start finish : ℤ) (b : Booking)

def nightsIn : ℕ := (min b.checkOut finish - max b.checkIn start).toNat

/-- What the days of a stay come to beside its nights inside the window. -/
def nightsOut : ℤ := b.checkOut - b.checkIn - nightsIn start finish b

end

section

variable (s : Store) (hotelId : Option ℤ) (start finish : ℤ)

def keptStays : Multiset Booking :=
  ofHotel hotelId Booking.hotelId ((bag s.bookings).filter fun b => b.kept)

def roomNights : ℕ := sumOrZero (nightsIn start finish) (keptStays s hotelId)

variable (p : Booking → Prop) [DecidablePred p]

/-- Nights of stays that the report counts, outside of the window. -/
def strayNights : ℤ := sumOrZero (nightsOut start finish) ((keptStays s hotelId).filter p)

/-- Nights in the window of stays that the report does not count. -/
def carriedNights : ℕ :=
  sumOrZero (nightsIn start finish) ((keptStays s hotelId).filter fun b => ¬p b)

theorem totalNights_filter : totalNights s hotelId p =
    sumOrZero (fun b => b.checkOut - b.checkIn) ((keptStays s hotelId).filter p) := by
  have hboth : ((bag s.bookings).filter fun b => b.kept ∧ p b) =
      ((bag s.bookings).filter fun b => b.kept).filter p := by
    rw [Multiset.filter_filter]
    exact Multiset.filter_congr fun b _ => and_comm
  unfold totalNights keptStays
  rw [ofHotel_eq_filter, ofHotel_eq_filter, hboth, Multiset.filter_comm]

theorem sum_nightsIn_add_nightsOut (rows : Multiset Booking) :
    sumOrZero (fun b => b.checkOut - b.checkIn) rows =
      sumOrZero (nightsIn start finish) rows + sumOrZero (nightsOut start finish) rows := by
  have hcast : ((sumOrZero (nightsIn start finish) rows : ℕ) : ℤ) =
      sumOrZero (fun b => (nightsIn start finish b : ℤ)) rows := by
    unfold sumOrZero
    have hsum := map_multiset_sum (Nat.castAddMonoidHom ℤ) (rows.map (nightsIn start finish))
    rw [Multiset.map_map] at hsum
    exact hsum
  rw [hcast, ← sumOrZero_add]
  refine sumOrZero_congr fun b _ => ?_
  unfold nightsOut
  omega

theorem totalNights_add_carried :
    totalNights s hotelId p + carriedNights s hotelId start finish p =
      roomNights s hotelId start finish + strayNights s hotelId start finish p := by
  have hparts : roomNights s hotelId start finish =
      sumOrZero (nightsIn start finish) ((keptStays s hotelId).filter p) +
        carriedNights s hotelId start finish p := by
    unfold roomNights carriedNights sumOrZero
    rw [← Multiset.sum_add, ← Multiset.map_add, Multiset.filter_add_not]
  have hcounted := sum_nightsIn_add_nightsOut start finish ((keptStays s hotelId).filter p)
  rw [totalNights_filter, hcounted, hparts]
  unfold strayNights
  push_cast
  omega

/-! ### Room nights there are -/

variable {s hotelId}

theorem nodup_keptStays : (keptStays s hotelId).Nodup := by
  unfold keptStays
  rw [ofHotel_eq_filter]
  exact ((nodup_bag _).filter _).filter _

theorem mem_keptStays {b : Booking} : b ∈ keptStays s hotelId ↔
    b ∈ s.bookings.rows ∧ b.kept ∧ ∀ h ∈ hotelId, b.hotelId = h := by
  unfold keptStays
  rw [ofHotel_eq_filter, Multiset.mem_filter, Multiset.mem_filter, mem_bag, and_assoc]

theorem Booking.kept.live {b : Booking} (h : b.kept) : b.Live := by
  unfold Booking.kept at h
  unfold Booking.Live
  intro hcancelled
  rw [hcancelled] at h
  revert h
  decide

/-- The nights of a stay in the window, with their room. -/
noncomputable def nightPairs (start finish : ℤ) (b : Booking) : Finset (ℤ × ℤ) :=
  (Finset.Ico (max b.checkIn start) (min b.checkOut finish)).map
    ⟨fun night => (b.roomId, night), fun _ _ h => (Prod.mk.inj h).2⟩

theorem card_nightPairs (b : Booking) :
    (nightPairs start finish b).card = nightsIn start finish b := by
  unfold nightPairs nightsIn
  rw [Finset.card_map, Int.card_Ico]

theorem mem_nightPairs {b : Booking} {x : ℤ × ℤ} : x ∈ nightPairs start finish b ↔
    x.1 = b.roomId ∧ x.2 ∈ b.stay ∧ start ≤ x.2 ∧ x.2 < finish := by
  unfold nightPairs Booking.stay
  rw [Finset.mem_map, Set.mem_Ico]
  constructor
  · rintro ⟨night, hnight, rfl⟩
    rw [Finset.mem_Ico] at hnight
    refine ⟨rfl, ?_⟩
    show (b.checkIn ≤ night ∧ night < b.checkOut) ∧ start ≤ night ∧ night < finish
    omega
  · rintro ⟨hroom, hstay, hwindow⟩
    refine ⟨x.2, ?_, Prod.ext hroom.symm rfl⟩
    rw [Finset.mem_Ico]
    omega

def activeRooms (s : Store) (hotelId : Option ℤ) : Multiset Room :=
  ofHotel hotelId Room.hotelId ((bag s.rooms).filter fun r => r.isActive = true)

theorem card_activeRooms_le : (activeRooms s hotelId).card ≤ totalRooms s hotelId := by
  unfold totalRooms
  show (activeRooms s hotelId).card ≤ if (activeRooms s hotelId).card = 0 then 1 else _
  split
  · omega
  · exact Nat.le_refl _

theorem room_active (hactive : BookedActive s) (hagree : HotelsAgree s) {b : Booking}
    (hb : b ∈ keptStays s hotelId) : ∃ r ∈ activeRooms s hotelId, r.id = b.roomId := by
  obtain ⟨hmem, hkept, hscope⟩ := mem_keptStays.mp hb
  obtain ⟨r, hr, hid, hopen⟩ := hactive b hmem hkept.live
  obtain ⟨r', hr', hid', hhotel⟩ := hagree b hmem
  obtain rfl := s.rooms.eq_of_key hr hr' (hid.trans hid'.symm)
  refine ⟨r, ?_, hid⟩
  unfold activeRooms
  rw [ofHotel_eq_filter]
  refine Multiset.mem_filter.mpr ⟨Multiset.mem_filter.mpr ⟨hr, hopen⟩, fun h hh => ?_⟩
  exact hhotel.trans (hscope h hh)

variable (hotelId) in
/-- Disjoint stays have no more nights than their rooms. -/
theorem roomNights_le (hdisjoint : NoDoubleBooking s.bookings) (hactive : BookedActive s)
    (hagree : HotelsAgree s) :
    roomNights s hotelId start finish ≤ totalRooms s hotelId * (finish - start).toNat := by
  let stays : Finset Booking := ⟨keptStays s hotelId, nodup_keptStays⟩
  let roomIds : Finset ℤ := ((activeRooms s hotelId).map Room.id).toFinset
  have hsum : roomNights s hotelId start finish =
      ∑ b ∈ stays, (nightPairs start finish b).card := by
    refine congrArg Multiset.sum (Multiset.map_congr rfl fun b _ => ?_)
    exact (card_nightPairs start finish b).symm
  have hapart : ∀ b ∈ stays, ∀ b' ∈ stays, b ≠ b' →
      Disjoint (nightPairs start finish b) (nightPairs start finish b') := by
    intro b hb b' hb' hne
    obtain ⟨hmem, hkept, _⟩ := mem_keptStays.mp hb
    obtain ⟨hmem', hkept', _⟩ := mem_keptStays.mp hb'
    refine Finset.disjoint_left.mpr fun x hx hx' => ?_
    obtain ⟨hroom, hstay, _⟩ := (mem_nightPairs start finish).mp hx
    obtain ⟨hroom', hstay', _⟩ := (mem_nightPairs start finish).mp hx'
    have hid : b.id ≠ b'.id := fun hsame => hne (s.bookings.eq_of_key hmem hmem' hsame)
    have hdis := hdisjoint b hmem b' hmem' hid (hroom.symm.trans hroom') hkept.live hkept'.live
    exact Set.disjoint_left.mp hdis hstay hstay'
  have hinside : stays.biUnion (nightPairs start finish) ⊆ roomIds ×ˢ Finset.Ico start finish := by
    intro x hx
    obtain ⟨b, hb, hnight⟩ := Finset.mem_biUnion.mp hx
    obtain ⟨hroom, _, hwindow⟩ := (mem_nightPairs start finish).mp hnight
    obtain ⟨r, hr, hid⟩ := room_active hactive hagree hb
    refine Finset.mem_product.mpr ⟨?_, Finset.mem_Ico.mpr hwindow⟩
    exact Multiset.mem_toFinset.mpr (Multiset.mem_map.mpr ⟨r, hr, hid.trans hroom.symm⟩)
  have hrooms : roomIds.card ≤ totalRooms s hotelId := by
    have hcard := Multiset.toFinset_card_le ((activeRooms s hotelId).map Room.id)
    rw [Multiset.card_map] at hcard
    exact hcard.trans card_activeRooms_le
  calc roomNights s hotelId start finish
      = (stays.biUnion (nightPairs start finish)).card := by
        rw [hsum, Finset.card_biUnion hapart]
    _ ≤ (roomIds ×ˢ Finset.Ico start finish).card := Finset.card_le_card hinside
    _ = roomIds.card * (finish - start).toNat := by
        rw [Finset.card_product, Int.card_Ico]
    _ ≤ totalRooms s hotelId * (finish - start).toNat := Nat.mul_le_mul_right _ hrooms

end

/-! ### Rates -/

/-- Nights as a percentage of those there are, in hundredths. -/
def hundredths (nights : ℤ) (size : ℕ) : ℤ :=
  halfEven (double (double (nights / size) * 100) * 100)

/-- The exact percentage, 14.375, would be rounded to 14.38. -/
example : hundredths 23 160 = 1437 := by decide +kernel

/-- The percentage to two digits. -/
def shownPct (nights : ℤ) (size : ℕ) : ℚ := double (hundredths nights size / 100)

/-- At least 0 and at most 100 per cent to two digits. Without doubles the bounds would
be -0.00005 and 1.00005. -/
def Percentage (nights : ℤ) (size : ℕ) : Prop :=
  -(14757395258967641 * size : ℤ) ≤ 2 ^ 68 * nights ∧
    2 ^ 53 * nights ≤ 9007649614703729 * size

def Percent (x : ℚ) : Prop := 0 ≤ x ∧ x ≤ 100

section

variable {size : ℕ} {m n : ℤ}

theorem hundredths_le_iff {x : ℚ} : halfEven (double (double x * 100) * 100) ≤ 10000 ↔
    x ≤ 9007649614703729 / 2 ^ 53 := by
  have hround : halfEven (double (double x * 100) * 100) ≤ 10000 ↔
      double (double x * 100) ≤ 20001 / 200 := by
    rw [halfEven_le_even (by decide)]
    push_cast
    constructor
    · intro h
      linarith
    · intro h
      linarith
  have hproduct := double_le_iff (x := double x * 100) (e := 6) (k := 7037226261487288)
    (c := 20001 / 200) (by norm_num) (by norm_num) (by decide) (by norm_num) (by norm_num)
    (by norm_num) (by norm_num)
  have hfactor := double_le_iff (x := x) (e := 0) (k := 4503824807351864)
    (c := (2 * 7037226261487288 + 1) * 2 ^ (-47 : ℤ) / 100) (by norm_num) (by norm_num) (by decide)
    (by norm_num) (by norm_num) (by norm_num) (by norm_num)
  rw [hround, hproduct, ← le_div_iff₀ (by norm_num)]
  norm_num at hfactor ⊢
  exact hfactor

theorem le_hundredths_iff {x : ℚ} : 0 ≤ halfEven (double (double x * 100) * 100) ↔
    -(14757395258967641 / 2 ^ 68) ≤ x := by
  have hflip : double (double (-x) * 100) = -double (double x * 100) := by
    rw [double_neg, neg_mul, double_neg]
  have hround : 0 ≤ halfEven (double (double x * 100) * 100) ↔
      double (double (-x) * 100) ≤ 1 / 200 := by
    rw [even_le_halfEven Even.zero, hflip]
    push_cast
    constructor
    · intro h
      linarith
    · intro h
      linarith
  have hproduct := double_le_iff (x := double (-x) * 100) (e := -8) (k := 5764607523034234)
    (c := 1 / 200) (by norm_num) (by norm_num) (by decide) (by norm_num) (by norm_num)
    (by norm_num) (by norm_num)
  have hfactor := double_le_iff (x := -x) (e := -15) (k := 7378697629483820)
    (c := (2 * 5764607523034234 + 1) * 2 ^ (-61 : ℤ) / 100) (by norm_num) (by norm_num) (by decide)
    (by norm_num) (by norm_num) (by norm_num) (by norm_num)
  rw [hround, hproduct, ← le_div_iff₀ (by norm_num), neg_le]
  norm_num at hfactor ⊢
  exact hfactor

theorem percentage_iff (hpos : 0 < size) :
    Percentage n size ↔ 0 ≤ hundredths n size ∧ hundredths n size ≤ 10000 := by
  have hsize : (0 : ℚ) < size := Nat.cast_pos.mpr hpos
  refine (and_congr ?_ ?_).symm
  · unfold hundredths
    rw [le_hundredths_iff, le_div_iff₀ hsize]
    have hcast : -(14757395258967641 * size : ℤ) ≤ 2 ^ 68 * n ↔
        -(14757395258967641 * size : ℚ) ≤ 2 ^ 68 * n := by
      exact_mod_cast Iff.rfl
    rw [hcast]
    constructor
    · intro h
      linarith
    · intro h
      linarith
  · unfold hundredths
    rw [hundredths_le_iff, div_le_iff₀ hsize]
    have hcast : 2 ^ 53 * n ≤ 9007649614703729 * size ↔
        2 ^ 53 * (n : ℚ) ≤ 9007649614703729 * size := by
      exact_mod_cast Iff.rfl
    rw [hcast]
    constructor
    · intro h
      linarith
    · intro h
      linarith

theorem Percentage.fraction_lt (hpos : 0 < size) (h : Percentage n size) :
    |(n : ℚ) / size| < 2 := by
  have hsize : (0 : ℚ) < size := Nat.cast_pos.mpr hpos
  obtain ⟨hlow, hhigh⟩ := h
  have hlow' : -2 * (size : ℤ) < n := by omega
  have hhigh' : n < 2 * (size : ℤ) := by omega
  rw [abs_lt, lt_div_iff₀ hsize, div_lt_iff₀ hsize]
  exact_mod_cast And.intro hlow' hhigh'

theorem hundredths_near (h : |(n : ℚ) / size| < 2) :
    |hundredths n size - 10000 * ((n : ℚ) / size)| ≤ 1 / 2 + 1 / 10 ^ 9 := by
  unfold hundredths
  generalize (n : ℚ) / size = x at h ⊢
  have hfactor := double_near (x := x) (e := 0) (by norm_num) (by norm_num) (by norm_num; exact h)
  have hfactor' := abs_le.mp hfactor
  have hx := abs_lt.mp h
  norm_num at hfactor'
  have hbound : |double x * 100| < 2 ^ (7 + 1 : ℤ) := by
    rw [abs_lt]
    norm_num
    constructor <;> linarith
  have hproduct := abs_le.mp (double_near (by norm_num) (by norm_num) hbound)
  norm_num at hproduct
  have hround := abs_le.mp (abs_sub_halfEven_le (double (double x * 100) * 100))
  rw [abs_le]
  constructor <;> linarith

theorem percent_iff {g : ℤ} : Percent (double (g / 100)) ↔ 0 ≤ g ∧ g ≤ 10000 := by
  have hzero : double 0 = 0 := by
    have h := double_intCast (m := 0) (by norm_num)
    push_cast at h
    exact h
  have hmin : double (-(1 / 128)) = -(1 / 128) := by
    have h := double_of_bits (m := -1) (e := -7) (by norm_num) (by norm_num) (by norm_num)
    norm_num at h ⊢
    exact h
  have hmax : double 100 = 100 := by
    have h := double_intCast (m := 100) (by norm_num)
    push_cast at h
    exact h
  have hover : double (12801 / 128) = 12801 / 128 := by
    have h := double_of_bits (m := 12801) (e := -7) (by norm_num) (by norm_num) (by norm_num)
    norm_num at h ⊢
    exact h
  refine and_congr ⟨fun h => ?_, fun h => ?_⟩ ⟨fun h => ?_, fun h => ?_⟩
  · by_contra hneg
    have hcast : (g : ℚ) ≤ -1 := by exact_mod_cast (by omega : g ≤ -1)
    have hmono := double_mono (by linarith : (g : ℚ) / 100 ≤ -(1 / 128))
    linarith
  · have hcast : (0 : ℚ) ≤ g := Int.cast_nonneg h
    rw [← hzero]
    exact double_mono (by linarith)
  · by_contra hlarge
    have hcast : (10001 : ℚ) ≤ g := by exact_mod_cast (by omega : 10001 ≤ g)
    have hmono := double_mono (by linarith : 12801 / 128 ≤ (g : ℚ) / 100)
    linarith
  · have hcast : (g : ℚ) ≤ 10000 := by exact_mod_cast h
    calc double (g / 100) ≤ double 100 := double_mono (by linarith)
      _ = 100 := hmax

theorem hundredth_near {g : ℤ} (hlow : 0 ≤ g) (hhigh : g ≤ 10000) :
    |double (g / 100) - g / 100| ≤ 1 / 10 ^ 9 := by
  have hlow' : (0 : ℚ) ≤ g := Int.cast_nonneg hlow
  have hhigh' : (g : ℚ) ≤ 10000 := by exact_mod_cast hhigh
  have hbound : |(g : ℚ) / 100| < 2 ^ (6 + 1 : ℤ) := by
    rw [abs_lt]
    norm_num
    constructor <;> linarith
  refine (double_near (by norm_num) (by norm_num) hbound).trans ?_
  norm_num

theorem percent_shownPct (hpos : 0 < size) : Percent (shownPct n size) ↔ Percentage n size := by
  unfold shownPct
  rw [percent_iff, percentage_iff hpos]

theorem shownPct_inj (hpos : 0 < size) (hm : Percentage m size) :
    shownPct m size = shownPct n size ↔ hundredths m size = hundredths n size := by
  constructor
  · intro h
    have hn : Percentage n size := by
      rw [← percent_shownPct hpos, ← h, percent_shownPct hpos]
      exact hm
    obtain ⟨hlow, hhigh⟩ := (percentage_iff hpos).mp hm
    obtain ⟨hlow', hhigh'⟩ := (percentage_iff hpos).mp hn
    have hnear := abs_le.mp (hundredth_near hlow hhigh)
    have hnear' := abs_le.mp (hundredth_near hlow' hhigh')
    unfold shownPct at h
    rw [h] at hnear
    have hle : (hundredths m size : ℚ) < hundredths n size + 1 := by linarith
    have hle' : (hundredths n size : ℚ) < hundredths m size + 1 := by linarith
    have hle₁ : hundredths m size < hundredths n size + 1 := by exact_mod_cast hle
    have hle₂ : hundredths n size < hundredths m size + 1 := by exact_mod_cast hle'
    omega
  · intro h
    unfold shownPct
    rw [h]

theorem percentage_congr (hpos : 0 < size) (h : hundredths m size = hundredths n size) :
    Percentage m size ↔ Percentage n size := by
  rw [percentage_iff hpos, percentage_iff hpos, h]

/-- To two digits the figure is that of the nights. -/
theorem shownPct_near (hpos : 0 < size) (h : Percentage n size) :
    |shownPct n size - 100 * n / size| ≤ 1 / 100 := by
  obtain ⟨hlow, hhigh⟩ := (percentage_iff hpos).mp h
  have hshown := abs_le.mp (hundredth_near hlow hhigh)
  have hround := abs_le.mp (hundredths_near (h.fraction_lt hpos))
  unfold shownPct
  rw [abs_le, mul_div_assoc]
  constructor <;> linarith

/-- A night more or less shows unless there are 10000. -/
theorem hundredths_inj (hpos : 0 < size) (hsmall : size < 10000) (hm : Percentage m size)
    (hn : Percentage n size) : hundredths m size = hundredths n size ↔ m = n := by
  have hsize : (0 : ℚ) < size := Nat.cast_pos.mpr hpos
  have hless : (size : ℚ) ≤ 9999 := by exact_mod_cast Nat.le_of_lt_succ hsmall
  have hclose : ∀ {m n : ℤ}, Percentage m size → Percentage n size →
      hundredths m size = hundredths n size → m ≤ n := by
    intro m n hm hn h
    have hm' := abs_le.mp (hundredths_near (hm.fraction_lt hpos))
    have hn' := abs_le.mp (hundredths_near (hn.fraction_lt hpos))
    rw [h] at hm'
    by_contra hlt
    have hnext : n + 1 ≤ m := by omega
    have hcast : (n : ℚ) + 1 ≤ m := by exact_mod_cast hnext
    have hone : (n : ℚ) / size + 1 / 9999 ≤ m / size := by
      rw [le_div_iff₀ hsize, add_mul, div_mul_cancel₀ _ hsize.ne']
      linarith
    linarith
  constructor
  · intro h
    exact le_antisymm (hclose hm hn h) (hclose hn hm h.symm)
  · intro h
    rw [h]

end

theorem number_occupancyPct (F : DoubleFloat) (nights : ℤ) {rooms : ℕ} (hrooms : rooms ≠ 0)
    (days : ℕ) : F.number (occupancyPct F.toPyFloat nights rooms days) =
      shownPct nights (rooms * days) := by
  unfold occupancyPct shownPct hundredths
  rw [if_neg hrooms]
  show F.value _ = _
  rw [F.value_round, F.value_percent, F.value_ofRat]
  push_cast
  rfl

theorem percent_iff_percentage (F : DoubleFloat) {nights : ℤ} {rooms days : ℕ}
    (hrooms : rooms ≠ 0) (hdays : days ≠ 0) :
    Percent (F.number (occupancyPct F.toPyFloat nights rooms days)) ↔
      Percentage nights (rooms * days) := by
  rw [number_occupancyPct F nights hrooms]
  exact percent_shownPct (Nat.mul_pos (Nat.pos_of_ne_zero hrooms) (Nat.pos_of_ne_zero hdays))

/-! ### The report -/

section

variable (s : Store) (clock : ReportClock) (days : ReportDays) (user : User)

/-- The nights there are in the window. -/
def roomDays : ℕ := totalRooms s (getOptionalHotel user) * days.days

/-- The room nights of the days before today. -/
def reportedNights : ℕ :=
  roomNights s (getOptionalHotel user) (reportStart clock days) (clock.today 0)

/-- Every rate is a percentage, and the first one, to two digits, that of the nights in
the window. -/
def OccupancyIsRate (F : DoubleFloat) : Prop :=
  ∃ r, occupancyReport F.toPyFloat s clock days user = .ok r ∧
    Percent (F.number r.occupancyRatePct) ∧ Percent (F.number r.vsPrevious.occupancyRatePct) ∧
    (∀ t ∈ r.byRoomType, Percent (F.number t.occupancyPct)) ∧
    F.number r.occupancyRatePct =
      shownPct (reportedNights s clock days user) (roomDays s days user) ∧
    |F.number r.occupancyRatePct -
      100 * reportedNights s clock days user / roomDays s days user| ≤ 1 / 100

def BegunIn (start finish : ℤ) (b : Booking) : Prop := start ≤ b.checkIn ∧ b.checkIn ≤ finish

def BegunBefore (start finish : ℤ) (b : Booking) : Prop := start ≤ b.checkIn ∧ b.checkIn < finish

instance (start finish : ℤ) (b : Booking) : Decidable (BegunIn start finish b) :=
  inferInstanceAs (Decidable (_ ∧ _))

instance (start finish : ℤ) (b : Booking) : Decidable (BegunBefore start finish b) :=
  inferInstanceAs (Decidable (_ ∧ _))

/-- Nights outside the window that are counted. -/
def strays : ℤ :=
  strayNights s (getOptionalHotel user) (reportStart clock days) (clock.today 0)
    (BegunIn (reportStart clock days) (clock.today 0))

/-- Nights in the window that are not. -/
def carried : ℕ :=
  carriedNights s (getOptionalHotel user) (reportStart clock days) (clock.today 0)
    (BegunIn (reportStart clock days) (clock.today 0))

/-- The nights that the previous window counts: those in it, and those beyond. -/
def previousNights : ℤ :=
  let start := reportStart clock days - days.days
  let finish := reportStart clock days
  sumOrZero (nightsIn start finish)
      ((keptStays s (getOptionalHotel user)).filter (BegunBefore start finish)) +
    strayNights s (getOptionalHotel user) start finish (BegunBefore start finish)

/-- What is counted outside the window makes up for what is not counted in it, or
vanishes in the rounding. -/
def Balanced : Prop :=
  strays s clock days user = carried s clock days user ∨ 10000 ≤ roomDays s days user ∧
    hundredths (reportedNights s clock days user + strays s clock days user -
      carried s clock days user) (roomDays s days user) =
      hundredths (reportedNights s clock days user) (roomDays s days user)

/-- The bookings with a check-in on one of the `days + 1` dates. -/
def typeArrivals (name : String) : ℕ :=
  countIn (fun y => y.2.2.name)
    (typedBookings s (getOptionalHotel user) (reportStart clock days) (clock.today 0)) name

def typeRooms (s : Store) (user : User) (name : String) : ℕ :=
  countIn (fun y => y.2.name) (typedRooms s (getOptionalHotel user)) name

structure RateHolds : Prop where
  balanced : Balanced s clock days user
  agree : HotelsAgree s ∨ Percentage (reportedNights s clock days user) (roomDays s days user)
  previous : Percentage (previousNights s clock days user) (roomDays s days user)
  types : ∀ x ∈ typedRooms s (getOptionalHotel user),
    Percentage (typeArrivals s clock days user x.2.name) (typeRooms s user x.2.name * days.days)

variable {s clock days user}

theorem totalRooms_ne_zero (hotelId : Option ℤ) : totalRooms s hotelId ≠ 0 := by
  unfold totalRooms
  show (if _ = 0 then 1 else _) ≠ 0
  split
  · exact Nat.one_ne_zero
  next h => exact h

theorem days_ne_zero : days.days ≠ 0 := Nat.ne_of_gt days.ge

theorem reported_add :
    totalNights s (getOptionalHotel user)
        (BegunIn (reportStart clock days) (clock.today 0)) =
      reportedNights s clock days user + strays s clock days user - carried s clock days user := by
  have htotal := totalNights_add_carried s (getOptionalHotel user) (reportStart clock days)
    (clock.today 0) (BegunIn (reportStart clock days) (clock.today 0))
  unfold reportedNights strays carried
  omega

theorem previous_eq :
    totalNights s (getOptionalHotel user)
        (BegunBefore (reportStart clock days - days.days) (reportStart clock days)) =
      previousNights s clock days user := by
  rw [totalNights_filter, sum_nightsIn_add_nightsOut (reportStart clock days - days.days)
    (reportStart clock days)]
  rfl

theorem roomDays_pos : 0 < roomDays s days user :=
  Nat.mul_pos (Nat.pos_of_ne_zero (totalRooms_ne_zero _)) days.ge

theorem balanced_iff
    (htotal : Percentage (reportedNights s clock days user + strays s clock days user -
      carried s clock days user) (roomDays s days user))
    (hreported : Percentage (reportedNights s clock days user) (roomDays s days user)) :
    Balanced s clock days user ↔
      hundredths (reportedNights s clock days user + strays s clock days user -
        carried s clock days user) (roomDays s days user) =
        hundredths (reportedNights s clock days user) (roomDays s days user) := by
  unfold Balanced
  by_cases hsmall : roomDays s days user < 10000
  · rw [hundredths_inj roomDays_pos hsmall htotal hreported]
    omega
  · constructor
    · rintro (hequal | ⟨_, hsame⟩)
      · rw [hequal, add_sub_cancel_right]
      · exact hsame
    · exact fun hsame => .inr ⟨Nat.le_of_not_lt hsmall, hsame⟩

theorem reportedNights_percentage (hdisjoint : NoDoubleBooking s.bookings)
    (hactive : BookedActive s) (hagree : HotelsAgree s) :
    Percentage (reportedNights s clock days user) (roomDays s days user) := by
  have hle := roomNights_le (getOptionalHotel user) (reportStart clock days)
    (clock.today 0) hdisjoint hactive hagree
  have hwindow : (clock.today 0 - reportStart clock days).toNat = days.days := by
    unfold reportStart
    omega
  rw [hwindow] at hle
  have hcast : (reportedNights s clock days user : ℤ) ≤ roomDays s days user := by
    exact_mod_cast hle
  unfold Percentage
  omega

variable (s clock days user) in
theorem percent_types_iff (F : DoubleFloat) :
    (∀ t ∈ byRoomType F.toPyFloat s (getOptionalHotel user) days.days (reportStart clock days)
      (clock.today 0), Percent (F.number t.occupancyPct)) ↔
    ∀ x ∈ typedRooms s (getOptionalHotel user),
      Percentage (typeArrivals s clock days user x.2.name)
        (typeRooms s user x.2.name * days.days) := by
  have hgroup : ∀ x ∈ typedRooms s (getOptionalHotel user), typeRooms s user x.2.name ≠ 0 := by
    intro x hx
    exact Nat.ne_of_gt (Multiset.card_pos_iff_exists_mem.mpr
      ⟨x, Multiset.mem_filter.mpr ⟨hx, rfl⟩⟩)
  unfold byRoomType groupBy
  simp only [Multiset.forall_mem_map_iff, Multiset.mem_dedup]
  refine forall₂_congr fun x hx => ?_
  exact percent_iff_percentage F (hgroup x hx) days_ne_zero

/-- The figures of the report that a member of the staff gets. -/
theorem occupancyIsRate_iff_parts (F : DoubleFloat) (hstaff : requireStaffOrAdmin user = .ok ()) :
    OccupancyIsRate s clock days user F ↔
      Percentage (reportedNights s clock days user) (roomDays s days user) ∧
      Percentage (previousNights s clock days user) (roomDays s days user) ∧
      (∀ x ∈ typedRooms s (getOptionalHotel user),
        Percentage (typeArrivals s clock days user x.2.name)
          (typeRooms s user x.2.name * days.days)) ∧
      hundredths (reportedNights s clock days user + strays s clock days user -
        carried s clock days user) (roomDays s days user) =
        hundredths (reportedNights s clock days user) (roomDays s days user) := by
  have hrooms := totalRooms_ne_zero (s := s) (getOptionalHotel user)
  have hpos : 0 < roomDays s days user := roomDays_pos
  have hfirst : F.number (occupancyPct F.toPyFloat (totalNights s (getOptionalHotel user)
      (BegunIn (reportStart clock days) (clock.today 0))) (totalRooms s (getOptionalHotel user))
      days.days) =
      shownPct (reportedNights s clock days user + strays s clock days user -
        carried s clock days user) (roomDays s days user) := by
    rw [number_occupancyPct F _ hrooms, reported_add]
    rfl
  have hprevious : Percent (F.number (occupancyPct F.toPyFloat
      (totalNights s (getOptionalHotel user)
        (BegunBefore (reportStart clock days - days.days) (reportStart clock days)))
      (totalRooms s (getOptionalHotel user)) days.days)) ↔
      Percentage (previousNights s clock days user) (roomDays s days user) := by
    rw [percent_iff_percentage F hrooms days_ne_zero, previous_eq]
    rfl
  have htypes := percent_types_iff s clock days user F
  unfold OccupancyIsRate occupancyReport
  rw [hstaff]
  constructor
  · rintro ⟨r, hr, hrate, hbefore, htyped, hfigure, -⟩
    cases hr
    have hrate' := hfirst.symm.trans hfigure
    have hcounted := (percent_shownPct hpos).mp (hfirst ▸ hrate)
    have hsame := (shownPct_inj hpos hcounted).mp hrate'
    exact ⟨(percentage_congr hpos hsame).mp hcounted, hprevious.mp hbefore, htypes.mp htyped,
      hsame⟩
  · rintro ⟨hreported, hbefore, htyped, hsame⟩
    have hcounted := (percentage_congr hpos hsame).mpr hreported
    have hfigure := hfirst.trans ((shownPct_inj hpos hcounted).mpr hsame)
    refine ⟨_, rfl, ?_, hprevious.mpr hbefore, htypes.mpr htyped, hfigure, ?_⟩
    · exact hfigure ▸ (percent_shownPct hpos).mpr hreported
    · exact hfigure ▸ shownPct_near hpos hreported

theorem occupancy_is_rate_iff (F : DoubleFloat) (s : Store) (clock : ReportClock)
    (days : ReportDays) (user : User) (hstaff : requireStaffOrAdmin user = .ok ())
    (hdisjoint : NoDoubleBooking s.bookings) (hactive : BookedActive s) :
    OccupancyIsRate s clock days user F ↔ RateHolds s clock days user := by
  rw [occupancyIsRate_iff_parts F hstaff]
  constructor
  · rintro ⟨hreported, hprevious, htypes, hsame⟩
    have hcounted := (percentage_congr roomDays_pos hsame).mpr hreported
    exact ⟨(balanced_iff hcounted hreported).mpr hsame, .inr hreported, hprevious, htypes⟩
  · intro h
    have hreported : Percentage (reportedNights s clock days user) (roomDays s days user) := by
      rcases h.agree with hagree | hreported
      · exact reportedNights_percentage hdisjoint hactive hagree
      · exact hreported
    refine ⟨hreported, h.previous, h.types, ?_⟩
    rcases h.balanced with hequal | ⟨_, hsame⟩
    · rw [hequal, add_sub_cancel_right]
    · exact hsame

end

/-! ### A steady month and a single day -/

def doubleReports : DoubleFloat where
  Carrier := ℚ
  ofRat := double
  mul := fun x y => double (x * y)
  sub := fun x y => double (x - y)
  div := fun x y => double (x / y)
  round := fun (x : ℚ) n => double (halfEven (x * 10 ^ n) / 10 ^ n)
  lt := fun (x y : ℚ) => x < y
  value := fun (x : ℚ) => x
  value_ofRat := fun _ => rfl
  value_percent := by
    intro x
    have hundred := double_intCast (m := 100) (by norm_num)
    push_cast at hundred
    show double (x * double 100) = _
    rw [hundred]
  value_round := by
    intro x
    show double (halfEven (x * 10 ^ 2) / 10 ^ 2) = _
    norm_num

def confirmedStay (id checkIn checkOut : ℤ) : Booking :=
  ⟨id, 1, 1, 1, checkIn, checkOut, 1, 0, none, 100, .confirmed, 0⟩

/-- A stay from the month before and one until after today have two nights each on
the other side. -/
def steadyStore : Store :=
  { sampleStore with
    bookings := ((Table.empty.insert (confirmedStay 0 (-12) (-8))).insert
      (confirmedStay 0 3 9)).insert (confirmedStay 0 18 22) }

instance (s : Store) : Decidable (BookedActive s) :=
  inferInstanceAs (Decidable (∀ b ∈ s.bookings.rows, b.Live → ∃ r ∈ s.rooms.rows, _ ∧ _))

instance (s : Store) : Decidable (HotelsAgree s) :=
  inferInstanceAs (Decidable (∀ b ∈ s.bookings.rows, ∃ r ∈ s.rooms.rows, _ ∧ _))

instance (nights : ℤ) (size : ℕ) : Decidable (Percentage nights size) :=
  inferInstanceAs (Decidable (_ ∧ _))

theorem steadyStore_holds : RateHolds steadyStore sampleClock sampleDays sampleAdmin where
  balanced := .inl (by decide +kernel)
  agree := .inl (by decide +kernel)
  previous := by decide +kernel
  types := by decide +kernel

theorem occupancy_is_rate_steady :
    OccupancyIsRate steadyStore sampleClock sampleDays sampleAdmin doubleReports :=
  (occupancy_is_rate_iff doubleReports steadyStore sampleClock sampleDays sampleAdmin (by decide)
    (by decide +kernel) (by decide +kernel)).mpr steadyStore_holds

def oneDay : ReportDays := ⟨1, Nat.one_pos, by decide⟩

/-- A guest arrives today for five nights. -/
def fiveNightStore : Store :=
  { sampleStore with bookings := Table.empty.insert (confirmedStay 0 20 25) }

theorem five_nights_of_one_day :
    NoDoubleBooking fiveNightStore.bookings ∧ BookedActive fiveNightStore ∧
      ¬OccupancyIsRate fiveNightStore sampleClock oneDay sampleAdmin doubleReports := by
  refine ⟨by decide +kernel, by decide +kernel, fun h => ?_⟩
  obtain ⟨_, _, _, hsame⟩ := (occupancyIsRate_iff_parts doubleReports (by decide)).mp h
  revert hsame
  decide +kernel

end HotelMs
