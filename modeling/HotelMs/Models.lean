import HotelMs.Lib.Tables
import HotelMs.Lib.SqlTypes
import Mathlib.Data.Int.ConditionallyCompleteOrder

/-!
# The database (`app/models/`)

One structure per mapped class, one field per column, and the store of all
tables. Dates are proleptic Gregorian day numbers (`date.toordinal`), time
stamps are seconds, `Numeric` columns are rationals.
-/

namespace HotelMs

open Tables

inductive Role
  | guest
  | staff
  | hotelAdmin
  | superAdmin
  deriving DecidableEq

def Role.ofString? : String → Option Role
  | "guest" => some .guest
  | "staff" => some .staff
  | "hotel_admin" => some .hotelAdmin
  | "super_admin" => some .superAdmin
  | _ => none

inductive BookingStatus
  | pending
  | confirmed
  | cancelled
  | completed
  deriving DecidableEq

def BookingStatus.ofString? : String → Option BookingStatus
  | "pending" => some .pending
  | "confirmed" => some .confirmed
  | "cancelled" => some .cancelled
  | "completed" => some .completed
  | _ => none

def BookingStatus.toString : BookingStatus → String
  | .pending => "pending"
  | .confirmed => "confirmed"
  | .cancelled => "cancelled"
  | .completed => "completed"

inductive PaymentStatus
  | pending
  | succeeded
  | failed
  | refunded
  deriving DecidableEq

structure Hotel where
  id : ℤ
  name : String
  description : Option String
  address : Option String
  city : Option String
  country : Option String
  countryCode : Option String
  phone : Option String
  email : Option String
  latitude : Option ℚ
  longitude : Option ℚ
  rating : ℚ
  createdAt : ℤ
  deriving DecidableEq

structure HotelImage where
  id : ℤ
  hotelId : ℤ
  imageUrl : String
  isPrimary : Bool
  deriving DecidableEq

structure RoomType where
  id : ℤ
  hotelId : ℤ
  name : String
  description : Option String
  deriving DecidableEq

structure Room where
  id : ℤ
  hotelId : ℤ
  roomTypeId : ℤ
  roomNumber : Option String
  capacity : Option ℤ
  basePrice : Option ℚ
  description : Option String
  isActive : Bool
  deriving DecidableEq

structure BlackoutDate where
  id : ℤ
  hotelId : ℤ
  roomId : Option ℤ
  date : ℤ
  reason : Option String
  deriving DecidableEq

structure PricingRule where
  id : ℤ
  hotelId : ℤ
  roomTypeId : ℤ
  startDate : ℤ
  endDate : ℤ
  price : Option ℚ
  multiplier : Option ℚ
  priority : ℤ
  createdAt : ℤ
  deriving DecidableEq

structure User where
  id : ℤ
  fullName : Option String
  email : String
  hashedPassword : String
  role : Role
  phone : Option String
  photoUrl : Option String
  isEmailVerified : Bool
  hotelId : Option ℤ
  createdAt : ℤ
  isBanned : Bool
  banReason : Option String
  vipStatus : Bool
  loyaltyPoints : ℤ
  loyaltyTier : String
  notes : Option String
  department : Option String
  segment : Option String
  riskScore : ℤ
  deriving DecidableEq

structure Booking where
  id : ℤ
  hotelId : ℤ
  userId : ℤ
  roomId : ℤ
  checkIn : ℤ
  checkOut : ℤ
  adults : ℤ
  children : ℤ
  specialRequests : Option String
  totalPrice : ℚ
  status : BookingStatus
  createdAt : ℤ
  deriving DecidableEq

structure Payment where
  id : ℤ
  bookingId : ℤ
  userId : ℤ
  amount : ℚ
  currency : String
  method : String
  status : PaymentStatus
  transactionId : Option String
  createdAt : ℤ
  deriving DecidableEq

structure Review where
  id : ℤ
  userId : ℤ
  hotelId : ℤ
  rating : ℤ
  comment : Option String
  createdAt : ℤ
  deriving DecidableEq

structure Notification where
  id : ℤ
  userId : ℤ
  title : String
  message : String
  type : String
  isRead : Bool
  createdAt : ℤ
  deriving DecidableEq

structure WishlistItem where
  id : ℤ
  userId : ℤ
  hotelId : Option ℤ
  roomId : Option ℤ
  createdAt : ℤ
  deriving DecidableEq

/-- `email_verifications` and `password_resets` have the same columns. -/
structure OneTimeToken where
  id : ℤ
  userId : ℤ
  token : String
  expiresAt : ℤ
  usedAt : Option ℤ
  deriving DecidableEq

structure GuestNote where
  id : ℤ
  userId : ℤ
  authorId : Option ℤ
  content : String
  noteType : String
  createdAt : ℤ
  deriving DecidableEq

structure ActivityLog where
  id : ℤ
  userId : Option ℤ
  action : String
  resource : Option String
  resourceId : Option ℤ
  detail : Option String
  ipAddress : Option String
  createdAt : ℤ
  deriving DecidableEq

instance : Keyed Hotel :=
  ⟨Hotel.id, fun n r => { r with id := n }, fun _ _ => rfl, fun _ => rfl⟩
instance : Keyed HotelImage :=
  ⟨HotelImage.id, fun n r => { r with id := n }, fun _ _ => rfl, fun _ => rfl⟩
instance : Keyed RoomType :=
  ⟨RoomType.id, fun n r => { r with id := n }, fun _ _ => rfl, fun _ => rfl⟩
instance : Keyed Room :=
  ⟨Room.id, fun n r => { r with id := n }, fun _ _ => rfl, fun _ => rfl⟩
instance : Keyed BlackoutDate :=
  ⟨BlackoutDate.id, fun n r => { r with id := n }, fun _ _ => rfl, fun _ => rfl⟩
instance : Keyed PricingRule :=
  ⟨PricingRule.id, fun n r => { r with id := n }, fun _ _ => rfl, fun _ => rfl⟩
instance : Keyed User :=
  ⟨User.id, fun n r => { r with id := n }, fun _ _ => rfl, fun _ => rfl⟩
instance : Keyed Booking :=
  ⟨Booking.id, fun n r => { r with id := n }, fun _ _ => rfl, fun _ => rfl⟩
instance : Keyed Payment :=
  ⟨Payment.id, fun n r => { r with id := n }, fun _ _ => rfl, fun _ => rfl⟩
instance : Keyed Review :=
  ⟨Review.id, fun n r => { r with id := n }, fun _ _ => rfl, fun _ => rfl⟩
instance : Keyed Notification :=
  ⟨Notification.id, fun n r => { r with id := n }, fun _ _ => rfl, fun _ => rfl⟩
instance : Keyed WishlistItem :=
  ⟨WishlistItem.id, fun n r => { r with id := n }, fun _ _ => rfl, fun _ => rfl⟩
instance : Keyed OneTimeToken :=
  ⟨OneTimeToken.id, fun n r => { r with id := n }, fun _ _ => rfl, fun _ => rfl⟩
instance : Keyed GuestNote :=
  ⟨GuestNote.id, fun n r => { r with id := n }, fun _ _ => rfl, fun _ => rfl⟩
instance : Keyed ActivityLog :=
  ⟨ActivityLog.id, fun n r => { r with id := n }, fun _ _ => rfl, fun _ => rfl⟩

/-- `hotel_facilities` has no key of its own: pairs of a hotel and a facility. -/
structure Store where
  hotels : Table Hotel
  hotelImages : Table HotelImage
  hotelFacilities : List (ℤ × ℤ)
  roomTypes : Table RoomType
  rooms : Table Room
  blackoutDates : Table BlackoutDate
  pricingRules : Table PricingRule
  users : Table User
  bookings : Table Booking
  payments : Table Payment
  reviews : Table Review
  notifications : Table Notification
  wishlistItems : Table WishlistItem
  emailVerifications : Table OneTimeToken
  passwordResets : Table OneTimeToken
  guestNotes : Table GuestNote
  activityLogs : Table ActivityLog

def Store.empty : Store where
  hotels := .empty
  hotelImages := .empty
  hotelFacilities := []
  roomTypes := .empty
  rooms := .empty
  blackoutDates := .empty
  pricingRules := .empty
  users := .empty
  bookings := .empty
  payments := .empty
  reviews := .empty
  notifications := .empty
  wishlistItems := .empty
  emailVerifications := .empty
  passwordResets := .empty
  guestNotes := .empty
  activityLogs := .empty

section

variable (n : ℤ)

@[simp] theorem key_hotel (r : Hotel) : Keyed.key r = r.id := rfl
@[simp] theorem key_roomType (r : RoomType) : Keyed.key r = r.id := rfl
@[simp] theorem key_room (r : Room) : Keyed.key r = r.id := rfl
@[simp] theorem key_blackoutDate (r : BlackoutDate) : Keyed.key r = r.id := rfl
@[simp] theorem key_pricingRule (r : PricingRule) : Keyed.key r = r.id := rfl
@[simp] theorem key_user (r : User) : Keyed.key r = r.id := rfl
@[simp] theorem key_booking (r : Booking) : Keyed.key r = r.id := rfl
@[simp] theorem key_payment (r : Payment) : Keyed.key r = r.id := rfl
@[simp] theorem key_review (r : Review) : Keyed.key r = r.id := rfl
@[simp] theorem key_notification (r : Notification) : Keyed.key r = r.id := rfl
@[simp] theorem key_wishlistItem (r : WishlistItem) : Keyed.key r = r.id := rfl

@[simp] theorem stamp_hotel (r : Hotel) : Keyed.stamp n r = { r with id := n } := rfl
@[simp] theorem stamp_roomType (r : RoomType) : Keyed.stamp n r = { r with id := n } := rfl
@[simp] theorem stamp_room (r : Room) : Keyed.stamp n r = { r with id := n } := rfl
@[simp] theorem stamp_blackoutDate (r : BlackoutDate) : Keyed.stamp n r = { r with id := n } := rfl
@[simp] theorem stamp_pricingRule (r : PricingRule) : Keyed.stamp n r = { r with id := n } := rfl
@[simp] theorem stamp_user (r : User) : Keyed.stamp n r = { r with id := n } := rfl
@[simp] theorem stamp_booking (r : Booking) : Keyed.stamp n r = { r with id := n } := rfl
@[simp] theorem stamp_payment (r : Payment) : Keyed.stamp n r = { r with id := n } := rfl
@[simp] theorem stamp_review (r : Review) : Keyed.stamp n r = { r with id := n } := rfl
@[simp] theorem stamp_notification (r : Notification) : Keyed.stamp n r = { r with id := n } := rfl
@[simp] theorem stamp_wishlistItem (r : WishlistItem) : Keyed.stamp n r = { r with id := n } := rfl

end

/-! ### Bookings and nights -/

/-- The nights of the stay, `[check_in, check_out)`. -/
def Booking.stay (b : Booking) : Set ℤ := Set.Ico b.checkIn b.checkOut

/-- Live bookings are those not cancelled. -/
def Booking.Live (b : Booking) : Prop := b.status ≠ .cancelled

instance (b : Booking) : Decidable b.Live := inferInstanceAs (Decidable (_ ≠ _))

end HotelMs
