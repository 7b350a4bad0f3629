import HotelMs.Bookings

/-!
# Reviews, notifications, wishlist

`api/v1/user/{reviews,notifications,wishlist}.py` and their repositories.
-/

namespace HotelMs

open Tables

/-! ### Reviews -/

def ratingRange (rating : ℤ) : Prop := 1 ≤ rating ∧ rating ≤ 5

instance (rating : ℤ) : Decidable (ratingRange rating) := inferInstanceAs (Decidable (_ ∧ _))

def createReview (s : Store) (now userId hotelId rating : ℤ) (comment : Option String) :
    Except Error (Review × Store) := do
  ensure (ratingRange rating ∧ (s.users.get userId).isSome ∧ (s.hotels.get hotelId).isSome)
    .integrity
  let row := { id := s.reviews.next, userId, hotelId, rating, comment, createdAt := now : Review }
  return (row, { s with reviews := s.reviews.insert row })

def getOwnReview (s : Store) (reviewId userId : ℤ) : Option Review :=
  (s.reviews.get reviewId).filter fun r => r.userId = userId

theorem getOwnReview_eq_some {s : Store} {reviewId userId : ℤ} {r : Review} :
    getOwnReview s reviewId userId = some r ↔
      (r ∈ s.reviews.rows ∧ r.id = reviewId) ∧ r.userId = userId := by
  simp [getOwnReview]

/-- `model_dump(exclude_none=True)` and the `setattr` loop. -/
def ReviewUpdate.apply (data : ReviewUpdate) (r : Review) : Review :=
  { r with rating := data.rating.getD r.rating, comment := data.comment.or r.comment }

def updateReview (s : Store) (reviewId userId : ℤ) (data : ReviewUpdate) :
    Except Error (Option Review × Store) :=
  match getOwnReview s reviewId userId with
  | none => .ok (none, s)
  | some review => do
    ensure (ratingRange (data.apply review).rating) .integrity
    return (some (data.apply review),
      { s with reviews := s.reviews.update reviewId data.apply })

def deleteReview (s : Store) (reviewId userId : ℤ) : Bool × Store :=
  match getOwnReview s reviewId userId with
  | none => (false, s)
  | some review => (true, { s with reviews := s.reviews.delete review.id })

def userHasReviewed (s : Store) (userId hotelId : ℤ) : Bool :=
  s.reviews.any fun r => r.userId = userId && r.hotelId = hotelId

def submitReview (env : Env) (s : Store) (token : Bearer) (data : ReviewCreate) :
    Except Error (Review × Store) := do
  let user ← getCurrentUser s token
  ensure (ratingRange data.rating) (.http 400 "Rating must be between 1 and 5")
  ensure (s.bookings.any (fun b =>
      b.userId = user.id && b.hotelId = data.hotelId && b.status = .completed) = true)
    (.http 403 "You can only review hotels where you have completed a stay")
  ensure (userHasReviewed s user.id data.hotelId = false)
    (.http 409 "You have already reviewed this hotel")
  createReview s env.now user.id data.hotelId data.rating data.comment

def reviewNotFound : Error := .http 404 "Review not found"

def editReview (s : Store) (token : Bearer) (reviewId : ℤ) (data : ReviewUpdate) :
    Except Error (Review × Store) := do
  let user ← getCurrentUser s token
  let updated ← updateReview s reviewId user.id data
  let row ← found updated.1 reviewNotFound
  return (row, updated.2)

def removeReview (s : Store) (token : Bearer) (reviewId : ℤ) : Except Error (Unit × Store) := do
  let user ← getCurrentUser s token
  let deleted := deleteReview s reviewId user.id
  ensure (deleted.1 = true) reviewNotFound
  return ((), deleted.2)

/-! ### Notifications -/

def markRead (s : Store) (notificationId userId : ℤ) : Option (Notification × Store) := do
  let n ← (s.notifications.get notificationId).filter fun n => n.userId = userId
  return ({ n with isRead := true }, { s with
    notifications := s.notifications.update notificationId fun n => { n with isRead := true } })

def markAllRead (s : Store) (userId : ℤ) : Store :=
  let unread := fun n : Notification => n.userId = userId && n.isRead = false
  { s with notifications := s.notifications.updateWhere unread fun n => { n with isRead := true } }

def readNotification (s : Store) (token : Bearer) (notificationId : ℤ) :
    Except Error (Notification × Store) := do
  let user ← getCurrentUser s token
  found (markRead s notificationId user.id) (.http 404 "Notification not found")

def readAllNotifications (s : Store) (token : Bearer) : Except Error (Unit × Store) := do
  let user ← getCurrentUser s token
  return ((), markAllRead s user.id)

/-! ### Wishlist -/

inductive WishTarget
  | hotel (id : ℤ)
  | room (id : ℤ)
  deriving DecidableEq

def WishTarget.hotelId : WishTarget → Option ℤ
  | .hotel id => some id
  | .room _ => none

def WishTarget.roomId : WishTarget → Option ℤ
  | .hotel _ => none
  | .room id => some id

def WishTarget.references (s : Store) : WishTarget → Bool
  | .hotel id => (s.hotels.get id).isSome
  | .room id => (s.rooms.get id).isSome

-- the column the query filters on is the target's own
def WishTarget.matches (target : WishTarget) (userId : ℤ) (w : WishlistItem) : Bool :=
  match target with
  | .hotel id => w.userId = userId && w.hotelId = some id
  | .room id => w.userId = userId && w.roomId = some id

def savedItem (s : Store) (userId : ℤ) (target : WishTarget) : Option WishlistItem :=
  (s.wishlistItems.select fun w => target.matches userId w).head?

theorem savedItem_userId {s : Store} {u : ℤ} {target : WishTarget} {w : WishlistItem}
    (h : savedItem s u target = some w) : w ∈ s.wishlistItems.rows ∧ w.userId = u := by
  obtain ⟨hmem, hmatch⟩ := (Table.mem_select _).mp (List.mem_of_mem_head? h)
  refine ⟨hmem, ?_⟩
  unfold WishTarget.matches at hmatch
  split at hmatch <;> simp only [Bool.and_eq_true, decide_eq_true_eq] at hmatch <;> exact hmatch.1

-- the two unique constraints are met: no item of the user has the target
def saveItem (env : Env) (s : Store) (token : Bearer) (target : WishTarget) :
    Except Error (WishlistItem × Store) := do
  let user ← getCurrentUser s token
  match savedItem s user.id target with
  | some item => return (item, s)
  | none => do
    ensure (target.references s = true) .integrity
    let row := {
      id := s.wishlistItems.next, userId := user.id, hotelId := target.hotelId
      roomId := target.roomId, createdAt := env.now : WishlistItem }
    return (row, { s with wishlistItems := s.wishlistItems.insert row })

def unsaveItem (s : Store) (token : Bearer) (target : WishTarget) (detail : String) :
    Except Error (Unit × Store) := do
  let user ← getCurrentUser s token
  let item ← found (savedItem s user.id target) (.http 404 detail)
  return ((), { s with wishlistItems := s.wishlistItems.delete item.id })

def addToWishlist (env : Env) (s : Store) (token : Bearer) (hotelId : ℤ) :
    Except Error (WishlistItem × Store) := saveItem env s token (.hotel hotelId)

def removeFromWishlist (s : Store) (token : Bearer) (hotelId : ℤ) : Except Error (Unit × Store) :=
  unsaveItem s token (.hotel hotelId) "Not in wishlist"

def saveRoom (env : Env) (s : Store) (token : Bearer) (roomId : ℤ) :
    Except Error (WishlistItem × Store) := saveItem env s token (.room roomId)

def unsaveRoom (s : Store) (token : Bearer) (roomId : ℤ) : Except Error (Unit × Store) :=
  unsaveItem s token (.room roomId) "Not saved"

end HotelMs
