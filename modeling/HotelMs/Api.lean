import HotelMs.Payments
import HotelMs.Guests
import HotelMs.AdminUsers
import HotelMs.Inventory

/-!
# Requests

The endpoints that can commit something, by router, and the store each leaves
behind. Every other endpoint only reads and is `Request.read`.
-/

namespace HotelMs

open Tables

inductive PublicRequest
  | register (data : RegisterRequest)
  | login (email password : String)
  | socialLogin (reply : Option ProviderUser)
  | googleLogin (reply : Except String ProviderUser)
  | verifyEmail (token : String)
  | resendVerification (email : String)
  | forgotPassword (email : String)
  | resetPassword (token newPassword : String)

inductive GuestRequest
  | createBooking (data : BookingCreate)
  | cancelBooking (bookingId : ℤ)
  | makePayment (data : PaymentRequest)
  | submitReview (data : ReviewCreate)
  | editReview (reviewId : ℤ) (data : ReviewUpdate)
  | removeReview (reviewId : ℤ)
  | readNotification (notificationId : ℤ)
  | readAllNotifications
  | addToWishlist (hotelId : ℤ)
  | removeFromWishlist (hotelId : ℤ)
  | saveRoom (roomId : ℤ)
  | unsaveRoom (roomId : ℤ)
  | updateProfile (data : ProfileUpdate)
  | changePassword (data : PasswordChange)

inductive PhotoRequest
  | delete
  | upload (contentType : String) (size : ℕ) (uploaded : Option String)

inductive DeskRequest
  | checkIn (bookingId : ℤ)
  | checkOut (bookingId : ℤ)
  | update (bookingId : ℤ) (newStatus : String)

inductive HotelRequest
  | create (data : HotelCreate)
  | update (hotelId : ℤ) (data : HotelUpdate)
  | delete (hotelId : ℤ)

inductive RoomTypeRequest
  | create (data : RoomTypeCreate)
  | update (typeId : ℤ) (data : RoomTypeCreate)
  | delete (typeId : ℤ)

inductive RoomRequest
  | create (data : RoomCreate)
  | update (roomId : ℤ) (data : RoomUpdate)
  | delete (roomId : ℤ)

inductive PricingRequest
  | create (data : PricingRuleCreate)
  | delete (ruleId : ℤ)

inductive BlackoutRequest
  | create (data : BlackoutCreate)
  | delete (blackoutId : ℤ)

inductive UserRequest
  | add (data : UserAdminCreate)
  | edit (userId : ℤ) (data : UserAdminUpdate)
  | remove (userId : ℤ)
  | ban (userId : ℤ) (body : BanRequest)
  | toggleVip (userId : ℤ)
  | loyalty (userId : ℤ) (body : LoyaltyRequest)
  | addNote (userId : ℤ) (body : NoteCreate)
  | deleteNote (userId noteId : ℤ)
  | segment (userId : ℤ) (segment : Option String)
  | blacklist (userId : ℤ) (body : BanRequest)

inductive Request
  | auth (r : PublicRequest)
  | guest (r : GuestRequest)
  | photo (r : PhotoRequest)
  | desk (r : DeskRequest)
  | hotel (r : HotelRequest)
  | roomType (r : RoomTypeRequest)
  | room (r : RoomRequest)
  | pricing (r : PricingRequest)
  | blackout (r : BlackoutRequest)
  | user (r : UserRequest)
  | read

section

variable (ext : Ext) (env : Env) (s : Store) (token : Bearer)

def servePublic : PublicRequest → Store
  | .register data => committed s (registerUser ext env s data)
  | .login _ _ => s
  | .socialLogin reply => committed s (socialLogin ext env s reply)
  | .googleLogin reply => committed s (googleLogin ext env s reply)
  | .verifyEmail secret => committed s (verifyEmail env s secret)
  | .resendVerification email => committed s (resendVerification ext env s email)
  | .forgotPassword email => committed s (forgotPassword ext env s email)
  | .resetPassword secret new => committed s (resetPassword ext env s secret new)

def serveGuest : GuestRequest → Store
  | .createBooking data => committed s (createBookingEndpoint env s token data)
  | .cancelBooking bookingId => committed s (cancelBookingEndpoint s token bookingId)
  | .makePayment data => (makePayment env s token data).2
  | .submitReview data => committed s (submitReview env s token data)
  | .editReview reviewId data => committed s (editReview s token reviewId data)
  | .removeReview reviewId => committed s (removeReview s token reviewId)
  | .readNotification notificationId => committed s (readNotification s token notificationId)
  | .readAllNotifications => committed s (readAllNotifications s token)
  | .addToWishlist hotelId => committed s (addToWishlist env s token hotelId)
  | .removeFromWishlist hotelId => committed s (removeFromWishlist s token hotelId)
  | .saveRoom roomId => committed s (saveRoom env s token roomId)
  | .unsaveRoom roomId => committed s (unsaveRoom s token roomId)
  | .updateProfile data => committed s (updateProfile ext s token data)
  | .changePassword data => committed s (changePassword ext env s token data)

def servePhoto : PhotoRequest → Store
  | .delete => committed s (deletePhoto s token)
  | .upload contentType size uploaded => committed s (uploadPhoto s token contentType size uploaded)

def serveDesk : DeskRequest → Store
  | .checkIn bookingId => (checkInBooking env s token bookingId).2
  | .checkOut bookingId => committed s (checkOutBooking env s token bookingId)
  | .update bookingId newStatus => committed s (updateBooking s token bookingId newStatus)

def serveHotel : HotelRequest → Store
  | .create data => committed s (createHotel env s data)
  | .update hotelId data => committed s (updateHotel s hotelId data)
  | .delete hotelId => committed s (deleteHotel s hotelId)

def serveRoomType : RoomTypeRequest → Store
  | .create data => committed s (createRoomType s token data)
  | .update typeId data => committed s (updateRoomType s token typeId data)
  | .delete typeId => committed s (deleteRoomType s token typeId)

def serveRoom : RoomRequest → Store
  | .create data => committed s (createRoom s token data)
  | .update roomId data => committed s (updateRoom s token roomId data)
  | .delete roomId => committed s (deleteRoom s token roomId)

def servePricing : PricingRequest → Store
  | .create data => committed s (createPricingRule env s token data)
  | .delete ruleId => committed s (deletePricingRule s token ruleId)

def serveBlackout : BlackoutRequest → Store
  | .create data => committed s (createBlackout s token data)
  | .delete blackoutId => committed s (deleteBlackout s token blackoutId)

def serveUser : UserRequest → Store
  | .add data => committed s (addUser ext env s token data)
  | .edit userId data => committed s (editUser ext s token userId data)
  | .remove userId => committed s (removeUser s token userId)
  | .ban userId body => committed s (banUser s token userId body)
  | .toggleVip userId => committed s (toggleVip s token userId)
  | .loyalty userId body => committed s (updateLoyalty s token userId body)
  | .addNote userId body => committed s (addGuestNote env s token userId body)
  | .deleteNote userId noteId => committed s (deleteGuestNote s token userId noteId)
  | .segment userId label => committed s (updateGuestSegment s token userId label)
  | .blacklist userId body => committed s (blacklistGuest s token userId body)

def serve : Request → Store
  | .auth r => servePublic ext env s r
  | .guest r => serveGuest ext env s token r
  | .photo r => servePhoto s token r
  | .desk r => serveDesk env s token r
  | .hotel r => serveHotel env s r
  | .roomType r => serveRoomType s token r
  | .room r => serveRoom s token r
  | .pricing r => servePricing env s token r
  | .blackout r => serveBlackout s token r
  | .user r => serveUser ext env s token r
  | .read => s

end

/-- One request of a run: what it reads from outside, its token, its endpoint. -/
structure Call where
  env : Env
  token : Bearer
  request : Request

def handle (ext : Ext) (s : Store) (c : Call) : Store := serve ext c.env s c.token c.request

/-- A step of a serial run: a request, or the payment task calling the service. -/
inductive Action
  | call (c : Call)
  | payment (env : Env) (c : PaymentCall)

def act (ext : Ext) (s : Store) : Action → Store
  | .call c => handle ext s c
  | .payment env c => (processPayment env s c).2

/-! ### A small instance

One hotel with one room at 100 a night, two guests and the hotel's admin. -/

def sampleExt : Ext where
  lower := fun text => text
  hashpw := fun _ password => password
  checkpw := fun password hashed => password == hashed

def sampleEnv (transactionId : String) : Env := ⟨0, "salt", "token", fun _ => some transactionId⟩

def sampleUser (role : Role) (email : String) (hotelId : Option ℤ) : User :=
  { newUser 0 none email "secret" 0 with role, hotelId }

def sampleStore : Store :=
  { Store.empty with
    hotels := Table.empty.insert
      ⟨1, "Grand", none, none, none, none, none, none, none, none, none, 0, 0⟩
    roomTypes := Table.empty.insert ⟨1, 1, "Double", none⟩
    rooms := Table.empty.insert ⟨1, 1, 1, none, none, some 100, none, true⟩
    users := ((Table.empty.insert (sampleUser .guest "a@x.org" none)).insert
      (sampleUser .guest "b@x.org" none)).insert (sampleUser .hotelAdmin "c@x.org" (some 1)) }

def asks (userId : ℤ) (r : Request) : Action := .call ⟨sampleEnv "txn_1", some userId, r⟩

def books (userId checkIn checkOut : ℤ) (h : checkIn < checkOut) : Action :=
  asks userId (.guest (.createBooking ⟨checkIn, checkOut, 1, h⟩))

def sampleStay : BookingCreate := ⟨10, 12, 1, by decide⟩

def bookedStore : Store := act sampleExt sampleStore (asks 1 (.guest (.createBooking sampleStay)))

end HotelMs
