import HotelMs.Models
import Mathlib.Data.List.Sort

/-!
# Pricing (`services/pricing.py`, `repositories/pricing_repository.py`)
-/

namespace HotelMs

/-- `ORDER BY priority DESC, id DESC`. -/
def PricingRule.before (a b : PricingRule) : Prop :=
  b.priority < a.priority ∨ (b.priority = a.priority ∧ b.id ≤ a.id)

instance : DecidableRel PricingRule.before := fun _ _ => inferInstanceAs (Decidable (_ ∨ _))

def getRulesForRoomType (s : Store) (hotelId roomTypeId : ℤ) (checkIn checkOut : ℤ) :
    List PricingRule :=
  (s.pricingRules.select fun r =>
    r.hotelId = hotelId && r.roomTypeId = roomTypeId && r.startDate ≤ checkOut &&
      checkIn ≤ r.endDate).insertionSort PricingRule.before

def dailyPrice (s : Store) (room : Room) (day : ℤ) : ℚ :=
  let basePrice := room.basePrice.getD 0
  match getRulesForRoomType s room.hotelId room.roomTypeId day day with
  | [] => basePrice
  | topRule :: _ =>
    match topRule.price, topRule.multiplier with
    | some price, _ => price
    | none, some multiplier => basePrice * multiplier
    | none, none => basePrice

/-- `n` rounds of `while current_day < check_out`. -/
def priceLoop (s : Store) (room : Room) : ℕ → ℤ → ℚ → ℚ
  | 0, _, total => total
  | n + 1, currentDay, total =>
    priceLoop s room n (currentDay + 1) (total + dailyPrice s room currentDay)

def calculateBookingPrice (s : Store) (room : Room) (checkIn checkOut : ℤ) : ℚ :=
  priceLoop s room (checkOut - checkIn).toNat checkIn 0

end HotelMs
