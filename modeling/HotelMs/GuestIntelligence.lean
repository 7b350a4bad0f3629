import HotelMs.Money
import HotelMs.ReportScope
import HotelMs.Lib.SqlTypes

/-!
# Guest intelligence (`services/guest_intelligence.py`)

The profile of a guest with its computed metrics, next to `get_user_detail`. Both
give the money the guest has spent: the profile adds up the prices of all
bookings, the detail page the succeeded payments.
-/

namespace HotelMs

open Tables Queries SqlTypes

/-- With `+` and `int()`, which truncates. -/
structure GuestFloat extends PyFloat where
  add : Carrier → Carrier → Carrier
  toInt : Carrier → ℤ

/-- `today i` is the answer to the `i`-th `date.today()`. -/
structure GuestClock where
  today : ℕ → ℤ
  now : ℤ

/-! ### Metrics -/

section

variable (F : GuestFloat)

/-- `max` of two floats: the first unless the second is greater. -/
def GuestFloat.max (x y : F.Carrier) : F.Carrier := if F.lt x y then y else x

def clampScore (score : ℤ) : ℤ := max 0 (min 100 score)

def computeAiScore (user : User) (total completed cancelled : ℕ) (spent : F.Carrier) : ℤ :=
  let points := min 15 (F.toInt (F.mul (F.ofRat (user.loyaltyPoints / 5000)) (F.ofRat 15)))
  let bookings := max total 1
  let completion := F.toInt (F.mul (F.ofRat (completed / bookings)) (F.ofRat 20))
  let cancellation := F.toInt (F.mul (F.ofRat (cancelled / bookings)) (F.ofRat 20))
  let spend := min 10 (F.toInt (F.mul (F.div spent (F.ofRat 3000)) (F.ofRat 10)))
  clampScore (50 + points + completion - cancellation + spend +
    (if user.vipStatus then 10 else 0) - (if user.isBanned then 30 else 0))

def computeSegment (user : User) (total completed cancelled : ℕ) (spent : F.Carrier) : String :=
  if user.isBanned then "blacklisted"
  else if user.vipStatus || F.lt (F.ofRat 5000) spent then "vip"
  else if 2 < total && F.lt (F.ofRat (1 / 2)) (F.ofRat (cancelled / total)) then "risky"
  else if 8 ≤ completed then "frequent"
  else if total = 0 then "new"
  else if 3 ≤ completed then "regular"
  else "casual"

def computeChurnProbability (today : ℤ) (lastVisit : Option ℤ) (completed : ℕ) : ℕ :=
  if completed = 0 then 0
  else match lastVisit with
    | none => 80
    | some day =>
      if 365 < today - day then 85
      else if 180 < today - day then 65
      else if 90 < today - day then 40
      else if 30 < today - day then 20
      else 10

def computeLtv (today now : ℤ) (spent : F.Carrier) (completed : ℕ) (lastVisit : Option ℤ)
    (createdAt : ℤ) : F.Carrier :=
  if completed = 0 then F.ofRat 0
  else
    let stays := F.ofRat completed
    let avgPerStay := F.div spent stays
    let tenureDays := (now - createdAt) / 86400
    let tenureMonths := F.max (F.div (F.ofRat tenureDays) (F.ofRat 30)) (F.ofRat 1)
    let staysPerMonth := F.div stays tenureMonths
    let churn := F.ofRat (computeChurnProbability today lastVisit completed / 100)
    let retention := F.max (F.sub (F.ofRat 1) churn) (F.ofRat (5 / 100))
    let projected := F.mul (F.mul staysPerMonth (F.ofRat 12)) retention
    F.round (F.add spent (F.mul avgPerStay projected)) 2

def computeRiskScore (ext : Ext) (user : User) (cancelled total : ℕ) : ℤ :=
  let cancelRate := F.ofRat (cancelled / max total 1)
  clampScore ((if user.isBanned then 40 else 0) +
    (if F.lt (F.ofRat (5 / 10)) cancelRate then 30
      else if F.lt (F.ofRat (3 / 10)) cancelRate then 15
      else if F.lt (F.ofRat (1 / 10)) cancelRate then 5
      else 0) +
    (if ext.lower user.loyaltyTier = "bronze" then 5 else 0) +
    (if !user.vipStatus && user.loyaltyPoints = 0 then 5 else 0))

end

/-! ### Profiles -/

structure BookingStats where
  totalBookings : ℕ
  completedStays : ℕ
  cancelledBookings : ℕ
  totalSpent : ℚ
  lastVisit : Option ℤ

/-- A date stands for its text. -/
structure GuestProfile (F : GuestFloat) where
  id : ℤ
  fullName : Option String
  email : String
  phone : Option String
  photoUrl : Option String
  createdAt : ℤ
  isBanned : Bool
  banReason : Option String
  vipStatus : Bool
  loyaltyTier : String
  loyaltyPoints : ℤ
  notes : Option String
  segment : String
  aiScore : ℤ
  riskScore : ℤ
  churnProbability : ℕ
  totalSpent : F.Carrier
  totalBookings : ℕ
  completedStays : ℕ
  cancelledBookings : ℕ
  lastVisit : Option ℤ
  lifetimeValue : F.Carrier
  avgStayValue : F.Carrier

structure RecentBooking (F : GuestFloat) where
  id : ℤ
  hotelId : ℤ
  roomId : ℤ
  checkIn : ℤ
  checkOut : ℤ
  status : BookingStatus
  totalPrice : F.Carrier

structure UserDetail (F : GuestFloat) where
  user : User
  totalBookings : ℕ
  totalSpent : F.Carrier
  recentBookings : List (RecentBooking F)

def guestUser (s : Store) (userId : ℤ) : Except Error User :=
  found ((s.users.get userId).filter fun u => u.role = .guest) guestNotFound

section

variable (F : GuestFloat) (ext : Ext) (clock : GuestClock) (s : Store)

/-- The row of `_booking_stats_subquery`: bookings of every status. -/
def bookingStats (userId : ℤ) : Option BookingStats :=
  groupRow Booking.userId (fun group => {
    totalBookings := group.card
    completedStays := (group.filter fun b => b.status = .completed).card
    cancelledBookings := (group.filter fun b => b.status = .cancelled).card
    totalSpent := sumOrZero Booking.totalPrice group
    lastVisit := maxOf Booking.checkOut group }) (bag s.bookings) userId

def guestDict (user : User) (row : Option BookingStats) : GuestProfile F :=
  let stats := row.getD ⟨0, 0, 0, 0, none⟩
  let spent := F.ofRat stats.totalSpent
  let segment := computeSegment F user stats.totalBookings stats.completedStays
    stats.cancelledBookings spent
  {
    id := user.id
    fullName := user.fullName
    email := user.email
    phone := user.phone
    photoUrl := user.photoUrl
    createdAt := user.createdAt
    isBanned := user.isBanned
    banReason := user.banReason
    vipStatus := user.vipStatus
    loyaltyTier := user.loyaltyTier
    loyaltyPoints := user.loyaltyPoints
    notes := user.notes
    segment := orElse user.segment segment
    aiScore := computeAiScore F user stats.totalBookings stats.completedStays
      stats.cancelledBookings spent
    riskScore := computeRiskScore F ext user stats.cancelledBookings stats.totalBookings
    churnProbability := computeChurnProbability (clock.today 0) stats.lastVisit
      stats.completedStays
    totalSpent := spent
    totalBookings := stats.totalBookings
    completedStays := stats.completedStays
    cancelledBookings := stats.cancelledBookings
    lastVisit := stats.lastVisit
    lifetimeValue := computeLtv F (clock.today 1) clock.now spent stats.completedStays
      stats.lastVisit user.createdAt
    avgStayValue :=
      if stats.completedStays = 0 then F.ofRat 0
      else F.round (F.div spent (F.ofRat stats.completedStays)) 2 }

variable (caller : User) (userId : ℤ)

def getGuestProfile : Except Error (GuestProfile F) := do
  requireAdmin caller
  let user ← guestUser s userId
  return guestDict F ext clock user (bookingStats s userId)

def paidTotalOf : ℚ :=
  sumOrZero (fun x => x.1.amount)
    ((joinOn (fun p => s.bookings.get p.bookingId) (bag s.payments)).filter
      fun x => x.2.userId = userId ∧ x.1.status = .succeeded)

def getUserDetail : Except Error (UserDetail F) := do
  requireAdmin caller
  let user ← found (s.users.get userId) userNotFound
  let bookings := s.bookings.select fun b => b.userId = userId
  let recent := (bookings.insertionSort fun a b => b.createdAt ≤ a.createdAt).take 10
  return {
    user
    totalBookings := bookings.length
    totalSpent := F.ofRat (paidTotalOf s userId)
    recentBookings := recent.map fun b =>
      ⟨b.id, b.hotelId, b.roomId, b.checkIn, b.checkOut, b.status, F.ofRat b.totalPrice⟩ }

end

/-! ### The two totals -/

/-- The `Numeric(10, 2)` columns that are added up. -/
structure Store.MoneyInCents (s : Store) : Prop where
  prices : ∀ b ∈ s.bookings.rows, HasScale 2 b.totalPrice
  amounts : ∀ p ∈ s.payments.rows, HasScale 2 p.amount

def bookingsOf (s : Store) (userId : ℤ) : Multiset Booking :=
  (bag s.bookings).filter fun b => b.userId = userId

def pricedTotalOf (s : Store) (userId : ℤ) : ℚ := sumOrZero Booking.totalPrice (bookingsOf s userId)

/-- What the bookings of the user, of every status, cost beyond the payments made
on each; paid twice counts against it. -/
def unsettled (s : Store) (userId : ℤ) : ℚ :=
  sumOrZero (fun b => b.totalPrice - paidSum s b.id) (bookingsOf s userId)

section

variable (s : Store) (userId : ℤ)

theorem bookingStats_totalSpent :
    ((bookingStats s userId).getD ⟨0, 0, 0, 0, none⟩).totalSpent = pricedTotalOf s userId := by
  unfold bookingStats groupRow pricedTotalOf bookingsOf
  dsimp only
  split
  next h =>
    rw [Multiset.card_eq_zero.mp h]
    rfl
  next h => rfl

theorem paidSum_eq_sumOrZero (bookingId : ℤ) :
    paidSum s bookingId = sumOrZero Payment.amount
      ((bag s.payments).filter fun p => p.bookingId = bookingId ∧ p.status = .succeeded) := by
  unfold paidSum sumOrZero bag Table.select
  rw [Multiset.filter_coe, Multiset.map_coe, Multiset.sum_coe]
  congr 2
  refine List.filter_congr fun p _ => ?_
  rw [Bool.decide_and]

theorem paidTotalOf_eq :
    paidTotalOf s userId = sumOrZero (fun b => paidSum s b.id) (bookingsOf s userId) := by
  unfold paidTotalOf bookingsOf
  rw [sumOrZero_joinOn s.bookings Payment.bookingId Payment.amount
    (fun p => p.status = .succeeded) (fun b => b.userId = userId) (bag s.payments)]
  exact sumOrZero_congr fun b _ => (paidSum_eq_sumOrZero s b.id).symm

theorem pricedTotalOf_eq : pricedTotalOf s userId = paidTotalOf s userId + unsettled s userId := by
  unfold pricedTotalOf unsettled
  rw [paidTotalOf_eq, ← sumOrZero_add]
  exact sumOrZero_congr fun b _ => (add_sub_cancel _ _).symm

theorem sumOrZero_hasScale {α : Type} {f : α → ℚ} {rows : Multiset α}
    (h : ∀ a ∈ rows, HasScale 2 (f a)) : HasScale 2 (sumOrZero f rows) :=
  HasScale.sum_map h

variable {s}

theorem pricedTotalOf_hasScale (h : s.MoneyInCents) : HasScale 2 (pricedTotalOf s userId) :=
  sumOrZero_hasScale fun b hb => h.prices b (Multiset.mem_filter.mp hb).1

theorem paidTotalOf_hasScale (h : s.MoneyInCents) : HasScale 2 (paidTotalOf s userId) := by
  refine sumOrZero_hasScale fun x hx => h.amounts x.1 ?_
  exact (mem_joinOn.mp (Multiset.mem_filter.mp hx).1).1

end

def NeverPaid (s : Store) (userId : ℤ) : Prop :=
  ∀ p ∈ s.payments.rows, p.status = .succeeded →
    ∀ b, s.bookings.get p.bookingId = some b → b.userId ≠ userId

theorem paidTotalOf_of_neverPaid {s : Store} {userId : ℤ} (h : NeverPaid s userId) :
    paidTotalOf s userId = 0 := by
  refine sumOrZero_zero fun x hx => ?_
  obtain ⟨hjoin, huser, hpaid⟩ := Multiset.mem_filter.mp hx
  obtain ⟨hp, hb⟩ := mem_joinOn.mp hjoin
  exact absurd huser (h x.1 hp hpaid x.2 hb)

/-! ### One notion of spend -/

def BookingStats.withoutSpend (r : BookingStats) : BookingStats := { r with totalSpent := 0 }

section

variable (F : GuestFloat)

/-- What is documented of floats: fifteen decimal digits survive the conversion,
and whole numbers below `2 ^ 53` compare as such. -/
structure GuestFloat.Documented : Prop where
  digits : ∀ x y : ℚ, HasScale 2 x → HasScale 2 y → |x| < 10 ^ 13 → |y| < 10 ^ 13 →
    F.ofRat x = F.ofRat y → x = y
  compares : ∀ m n : ℤ, |m| < 2 ^ 53 → |n| < 2 ^ 53 → F.lt (F.ofRat m) (F.ofRat n) = decide (m < n)

/-- Different amounts, too long for a float, that round to the same one. -/
def GuestFloat.Blurs (x y : ℚ) : Prop :=
  (10 ^ 13 ≤ |x| ∨ 10 ^ 13 ≤ |y|) ∧ F.ofRat x = F.ofRat y

variable (ext : Ext) (clock : GuestClock)

/-- Both endpoints answer with the same total, and no metric of a guest who never
paid is moved by spend. -/
def SpendsAlike (s : Store) (caller user : User) : Prop :=
  ∃ profile detail, getGuestProfile F ext clock s caller user.id = .ok profile ∧
    getUserDetail F s caller user.id = .ok detail ∧
    profile.totalSpent = detail.totalSpent ∧
    (NeverPaid s user.id →
      profile = guestDict F ext clock user
        ((bookingStats s user.id).map BookingStats.withoutSpend) ∧
      (profile.segment = "vip" → user.segment = some "vip" ∨ user.vipStatus = true))

variable {F ext clock}

theorem guestDict_withoutSpend {user : User} {row : Option BookingStats}
    (h : F.ofRat (row.getD ⟨0, 0, 0, 0, none⟩).totalSpent = F.ofRat 0) :
    guestDict F ext clock user row =
      guestDict F ext clock user (row.map BookingStats.withoutSpend) := by
  cases row with
  | none => rfl
  | some r =>
    rw [Option.getD_some] at h
    simp only [guestDict, Option.map_some, Option.getD_some, BookingStats.withoutSpend, h]
    rfl

/-- Without spend only the flag makes a VIP. -/
theorem computeSegment_zero (hF : F.Documented) {user : User} {total completed cancelled : ℕ}
    (h : computeSegment F user total completed cancelled (F.ofRat 0) = "vip") :
    user.vipStatus = true := by
  have hlt : F.lt (F.ofRat 5000) (F.ofRat 0) = false := by
    have hcompare := hF.compares 5000 0 (by norm_num) (by norm_num)
    simpa using hcompare
  by_contra hvip
  rw [Bool.not_eq_true] at hvip
  unfold computeSegment at h
  rw [hlt, hvip] at h
  split at h
  · exact absurd h (by decide)
  · rw [Bool.or_false, if_neg Bool.false_ne_true] at h
    repeat' split at h
    all_goals exact absurd h (by decide)

theorem guestDict_segment_zero (hF : F.Documented) {user : User} {row : Option BookingStats}
    (h : (guestDict F ext clock user (row.map BookingStats.withoutSpend)).segment = "vip") :
    user.segment = some "vip" ∨ user.vipStatus = true := by
  have hspend : ((row.map BookingStats.withoutSpend).getD ⟨0, 0, 0, 0, none⟩).totalSpent = 0 := by
    cases row with
    | none => rfl
    | some r => rfl
  simp only [guestDict, hspend, orElse] at h
  cases hfilter : user.segment.filter (· ≠ "") with
  | none =>
    rw [hfilter] at h
    exact Or.inr (computeSegment_zero hF h)
  | some label =>
    rw [hfilter] at h
    obtain ⟨hlabel, _⟩ := Option.filter_eq_some_iff.mp hfilter
    rw [hlabel]
    exact Or.inl (congrArg some h)

theorem getGuestProfile_of_guest {s : Store} {caller user : User}
    (hadmin : requireAdmin caller = .ok ()) (huser : s.users.get user.id = some user)
    (hguest : user.role = .guest) :
    getGuestProfile F ext clock s caller user.id =
      .ok (guestDict F ext clock user (bookingStats s user.id)) := by
  have hrow : guestUser s user.id = .ok user := by
    unfold guestUser
    rw [huser, Option.filter_some, if_pos (by rw [hguest, decide_eq_true rfl])]
    rfl
  unfold getGuestProfile
  rw [hadmin, hrow]
  rfl

theorem getUserDetail_of_user {s : Store} {caller user : User}
    (hadmin : requireAdmin caller = .ok ()) (huser : s.users.get user.id = some user) :
    ∃ detail, getUserDetail F s caller user.id = .ok detail ∧
      detail.totalSpent = F.ofRat (paidTotalOf s user.id) := by
  unfold getUserDetail
  rw [hadmin, huser]
  exact ⟨_, rfl, rfl⟩

theorem spends_alike_of_same (hF : F.Documented) {s : Store} {caller user : User}
    (hadmin : requireAdmin caller = .ok ()) (huser : s.users.get user.id = some user)
    (hguest : user.role = .guest)
    (h : F.ofRat (pricedTotalOf s user.id) = F.ofRat (paidTotalOf s user.id)) :
    SpendsAlike F ext clock s caller user := by
  obtain ⟨detail, hdetail, htotal⟩ := getUserDetail_of_user (F := F) hadmin huser
  refine ⟨_, detail, getGuestProfile_of_guest hadmin huser hguest, hdetail, ?_, fun hnever => ?_⟩
  · rw [htotal, ← h]
    exact congrArg F.ofRat (bookingStats_totalSpent s user.id)
  · have hzero : F.ofRat ((bookingStats s user.id).getD ⟨0, 0, 0, 0, none⟩).totalSpent =
        F.ofRat 0 := by
      rw [bookingStats_totalSpent, h, paidTotalOf_of_neverPaid hnever]
    have hdict : guestDict F ext clock user (bookingStats s user.id) = _ :=
      guestDict_withoutSpend hzero
    refine ⟨hdict, fun hvip => ?_⟩
    rw [hdict] at hvip
    exact guestDict_segment_zero hF hvip

theorem same_of_spends_alike {s : Store} {caller user : User}
    (hadmin : requireAdmin caller = .ok ()) (huser : s.users.get user.id = some user)
    (hguest : user.role = .guest) (h : SpendsAlike F ext clock s caller user) :
    F.ofRat (pricedTotalOf s user.id) = F.ofRat (paidTotalOf s user.id) := by
  obtain ⟨profile, detail, hprofile, hdetail, hsame, _⟩ := h
  obtain ⟨detail', hdetail', htotal⟩ := getUserDetail_of_user (F := F) hadmin huser
  rw [getGuestProfile_of_guest hadmin huser hguest] at hprofile
  obtain rfl := Except.ok.inj hprofile
  obtain rfl := Except.ok.inj (hdetail.symm.trans hdetail')
  rw [← bookingStats_totalSpent, ← htotal, ← hsame]
  rfl

/-- Two sums in cents make the same float only if they are the same or beyond
the digits of a float. -/
theorem ofRat_eq_iff (hF : F.Documented) {x y : ℚ} (hx : HasScale 2 x) (hy : HasScale 2 y) :
    F.ofRat x = F.ofRat y ↔ x = y ∨ F.Blurs x y := by
  constructor
  · intro h
    by_cases hbig : 10 ^ 13 ≤ |x| ∨ 10 ^ 13 ≤ |y|
    · exact Or.inr ⟨hbig, h⟩
    · rw [not_or, not_le, not_le] at hbig
      exact Or.inl (hF.digits x y hx hy hbig.1 hbig.2 h)
  · intro h
    rcases h with rfl | h
    · rfl
    · exact h.2

theorem spends_alike_iff (hF : F.Documented) {s : Store} (hs : s.MoneyInCents)
    {caller user : User} (hadmin : requireAdmin caller = .ok ())
    (huser : s.users.get user.id = some user) (hguest : user.role = .guest) :
    SpendsAlike F ext clock s caller user ↔
      unsettled s user.id = 0 ∨ F.Blurs (pricedTotalOf s user.id) (paidTotalOf s user.id) := by
  have hsums : pricedTotalOf s user.id = paidTotalOf s user.id ↔ unsettled s user.id = 0 := by
    rw [pricedTotalOf_eq, add_eq_left]
  rw [← hsums, ← ofRat_eq_iff hF (pricedTotalOf_hasScale user.id hs)
    (paidTotalOf_hasScale user.id hs)]
  constructor
  · exact same_of_spends_alike hadmin huser hguest
  · exact spends_alike_of_same hF hadmin huser hguest

end

/-! ### A guest who cancels -/

def exactFloat : GuestFloat where
  toPyFloat := sampleFloat
  add := fun (x y : ℚ) => x + y
  toInt := fun (x : ℚ) => if 0 ≤ x then ⌊x⌋ else ⌈x⌉

theorem exactFloat_documented : exactFloat.Documented := by
  constructor
  · intro x y _ _ _ _ h
    exact h
  · intro m n _ _
    have hlt : ((m : ℚ) < (n : ℚ)) ↔ m < n := Int.cast_lt
    exact decide_eq_decide.mpr hlt

def guestClock : GuestClock := ⟨fun _ => 20, 0⟩

def paidStore : Store :=
  act sampleExt bookedStore (asks 1 (.guest (.makePayment ⟨1, 200, "card", "USD"⟩)))

theorem spends_alike_paid : SpendsAlike exactFloat sampleExt guestClock paidStore
    (sampleUser .hotelAdmin "c@x.org" (some 1))
    { sampleUser .guest "a@x.org" none with id := 1 } := by
  have hprices : paidStore.bookings.rows.map Booking.totalPrice = [200] := by decide +kernel
  have hamounts : paidStore.payments.rows.map Payment.amount = [200] := by decide +kernel
  have hscale : HasScale 2 200 := ⟨20000, by norm_num⟩
  have hcents : paidStore.MoneyInCents := by
    constructor
    · intro b hb
      have hmem := List.mem_map_of_mem (f := Booking.totalPrice) hb
      rw [hprices, List.mem_singleton] at hmem
      rwa [hmem]
    · intro p hp
      have hmem := List.mem_map_of_mem (f := Payment.amount) hp
      rw [hamounts, List.mem_singleton] at hmem
      rwa [hmem]
  have hsettled : unsettled paidStore 1 = 0 := by decide +kernel
  exact (spends_alike_iff exactFloat_documented hcents (by decide) (by decide +kernel)
    rfl).mpr (Or.inl hsettled)

/-- Guest 1 books sixty nights at 100. -/
def longStay : BookingCreate := ⟨100, 160, 1, by decide⟩

def cancelledStore : Store :=
  act sampleExt (act sampleExt sampleStore (asks 1 (.guest (.createBooking longStay))))
    (asks 1 (.guest (.cancelBooking 1)))

theorem cancelled_guest_is_vip : ¬SpendsAlike exactFloat sampleExt guestClock cancelledStore
    (sampleUser .hotelAdmin "c@x.org" (some 1))
    { sampleUser .guest "a@x.org" none with id := 1 } := by
  intro h
  obtain ⟨profile, _, hprofile, _, _, hnever⟩ := h
  have hunpaid : NeverPaid cancelledStore 1 := by
    intro p hp
    have hrows : cancelledStore.payments.rows = [] := by decide +kernel
    rw [hrows] at hp
    cases hp
  have hsegment : (getGuestProfile exactFloat sampleExt guestClock cancelledStore
      (sampleUser .hotelAdmin "c@x.org" (some 1)) 1).toOption.map GuestProfile.segment =
        some "vip" := by decide +kernel
  have hprofile' : (getGuestProfile exactFloat sampleExt guestClock cancelledStore
      (sampleUser .hotelAdmin "c@x.org" (some 1)) 1) = .ok profile := hprofile
  rw [hprofile'] at hsegment
  rcases (hnever hunpaid).2 (Option.some.inj hsegment) with hstored | hflag
  · cases hstored
  · cases hflag

end HotelMs
