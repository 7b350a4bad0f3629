import HotelMs.Models
import HotelMs.Lib.PyText

/-!
# Request bodies (`app/schemas/` and the models declared beside the routers)

A body that fails validation never reaches its handler (422), so what a
validator enforces is a field. `Option (Option α)` is a field of a body dumped
with `exclude_unset`: absent, or present and possibly null.
-/

namespace HotelMs

/-- `_PASSWORD_RE`: the four look-aheads and `.{8,}$`, where `.` stops at a
newline and `$` allows one at the very end. -/
def validatePasswordStrength (value : String) : Bool :=
  let line := value.toList.takeWhile (· ≠ '\n')
  let rest := value.toList.dropWhile (· ≠ '\n')
  line.any (fun c => 'a' ≤ c && c ≤ 'z') &&
    line.any (fun c => 'A' ≤ c && c ≤ 'Z') &&
    line.any PyText.isDecimal &&
    line.any (fun c => "!@#$%^&*()_+-=[]\x7b\x7d|;:,.<>?".toList.contains c) &&
    decide (8 ≤ line.length) && (rest == [] || rest == ['\n'])

structure RegisterRequest where
  fullName : String
  email : String
  password : String
  hotelId : Option ℤ
  full_name_not_empty : PyText.strip fullName = fullName ∧ 2 ≤ fullName.length
  password_strength : validatePasswordStrength password = true

structure BookingCreate where
  checkIn : ℤ
  checkOut : ℤ
  roomId : ℤ
  validate_date_range : checkIn < checkOut

structure PaymentRequest where
  bookingId : ℤ
  amount : ℚ
  method : String
  currency : String

structure ReviewCreate where
  hotelId : ℤ
  rating : ℤ
  comment : Option String

structure ReviewUpdate where
  rating : Option ℤ
  comment : Option String

structure ProfileUpdate where
  fullName : Option String
  email : Option String
  phone : Option String

structure PasswordChange where
  currentPassword : String
  newPassword : String

structure HotelCreate where
  name : String
  description : Option String
  address : Option String
  city : Option String
  country : Option String
  countryCode : Option String
  phone : Option String
  email : Option String
  latitude : Option ℚ
  longitude : Option ℚ
  rating : ℚ

structure HotelUpdate where
  name : Option (Option String)
  description : Option (Option String)
  address : Option (Option String)
  city : Option (Option String)
  country : Option (Option String)
  countryCode : Option (Option String)
  phone : Option (Option String)
  email : Option (Option String)
  latitude : Option (Option ℚ)
  longitude : Option (Option ℚ)
  rating : Option (Option ℚ)

structure RoomTypeCreate where
  name : String
  description : Option String

structure RoomCreate where
  hotelId : ℤ
  roomTypeId : ℤ
  roomNumber : Option String
  capacity : Option ℤ
  basePrice : Option ℚ
  description : Option String
  isActive : Bool

structure RoomUpdate where
  hotelId : Option (Option ℤ)
  roomTypeId : Option (Option ℤ)
  roomNumber : Option (Option String)
  capacity : Option (Option ℤ)
  basePrice : Option (Option ℚ)
  description : Option (Option String)
  isActive : Option (Option Bool)

structure PricingRuleCreate where
  roomTypeId : ℤ
  startDate : ℤ
  endDate : ℤ
  price : Option ℚ
  multiplier : Option ℚ
  priority : ℤ
  model_post_init : ¬(price = none ∧ multiplier = none)

structure BlackoutCreate where
  date : ℤ
  roomId : Option ℤ
  reason : Option String

structure UserAdminCreate where
  fullName : String
  email : String
  password : String
  role : String
  phone : Option String
  department : Option String
  notes : Option String

structure UserAdminUpdate where
  fullName : Option String
  email : Option String
  phone : Option String
  role : Option String
  vipStatus : Option Bool
  loyaltyPoints : Option ℤ
  loyaltyTier : Option String
  notes : Option String
  department : Option String

structure BanRequest where
  ban : Bool
  reason : Option String

structure LoyaltyRequest where
  pointsDelta : ℤ
  tier : Option String

structure NoteCreate where
  content : String
  noteType : String

end HotelMs
