import HotelMs.Accounts

/-!
# User administration and guest intelligence

`api/v1/admin/users.py` and the writing endpoints of
`api/v1/admin/guest_intelligence.py`. Every one of them asks for an admin role
and none compares the hotel of the caller with that of the row.
-/

namespace HotelMs

open Tables

def addUser (ext : Ext) (env : Env) (s : Store) (token : Bearer) (data : UserAdminCreate) :
    Except Error (User × Store) := do
  let user ← getCurrentUser s token
  requireAdmin user
  let role ← found (Role.ofString? data.role) .data
  createUser s {
    newUser env.now (some data.fullName) (ext.lower data.email)
      (ext.hashpw env.salt data.password) s.users.next with
    role, phone := data.phone, department := data.department, notes := data.notes
    hotelId := getOptionalHotel user }

/-- `model_dump(exclude_none=True)` and the `setattr` loop; the label of the
role is checked when the row is written. -/
def UserAdminUpdate.apply (ext : Ext) (data : UserAdminUpdate) (role : Option Role) (u : User) :
    User :=
  { u with
    fullName := data.fullName.or u.fullName
    email := (data.email.map ext.lower).getD u.email
    phone := data.phone.or u.phone
    role := role.getD u.role
    vipStatus := data.vipStatus.getD u.vipStatus
    loyaltyPoints := data.loyaltyPoints.getD u.loyaltyPoints
    loyaltyTier := data.loyaltyTier.getD u.loyaltyTier
    notes := data.notes.or u.notes
    department := data.department.or u.department }

def parseRole : Option String → Except Error (Option Role)
  | none => .ok none
  | some label => do return some (← found (Role.ofString? label) .data)

/-- The shape of the endpoints that change one row and answer 404 without it. -/
def adminEdit (s : Store) (token : Bearer) (userId : ℤ) (missing : Error) (f : User → User) :
    Except Error (User × Store) := do
  let user ← getCurrentUser s token
  requireAdmin user
  let updated ← updateUser s userId f
  let row ← found updated.1 missing
  return (row, updated.2)

def editUser (ext : Ext) (s : Store) (token : Bearer) (userId : ℤ) (data : UserAdminUpdate) :
    Except Error (User × Store) := do
  let user ← getCurrentUser s token
  requireAdmin user
  let _ ← found (s.users.get userId) userNotFound
  let role ← parseRole data.role
  adminEdit s token userId userNotFound (data.apply ext role)

def userUnreferenced (s : Store) (userId : ℤ) : Bool :=
  !s.bookings.any (fun b => b.userId = userId) &&
    !s.payments.any (fun p => p.userId = userId) &&
    !s.reviews.any (fun r => r.userId = userId) &&
    !s.notifications.any (fun n => n.userId = userId) &&
    !s.wishlistItems.any (fun w => w.userId = userId) &&
    !s.emailVerifications.any (fun t => t.userId = userId) &&
    !s.passwordResets.any (fun t => t.userId = userId) &&
    !s.activityLogs.any (fun l => l.userId = some userId)

/-- The notes about the user go with the row, those the user wrote lose their author. -/
def removeUser (s : Store) (token : Bearer) (userId : ℤ) : Except Error (Unit × Store) := do
  let user ← getCurrentUser s token
  requireAdmin user
  let row ← found (s.users.get userId) userNotFound
  ensure (userUnreferenced s row.id = true) .integrity
  let kept := s.guestNotes.deleteWhere fun n => n.userId = row.id
  return ((), { s with
    users := s.users.delete row.id
    guestNotes := kept.updateWhere (fun n => n.authorId = some row.id) fun n =>
      { n with authorId := none } })

def BanRequest.apply (body : BanRequest) (u : User) : User :=
  { u with isBanned := body.ban, banReason := if body.ban then body.reason else none }

def banUser (s : Store) (token : Bearer) (userId : ℤ) (body : BanRequest) :
    Except Error (User × Store) :=
  adminEdit s token userId userNotFound body.apply

def toggleVip (s : Store) (token : Bearer) (userId : ℤ) : Except Error (User × Store) :=
  adminEdit s token userId userNotFound fun u => { u with vipStatus := !u.vipStatus }

def loyaltyTierOf (points : ℤ) : String :=
  if 5000 ≤ points then "platinum"
  else if 2000 ≤ points then "gold"
  else if 500 ≤ points then "silver"
  else "bronze"

def LoyaltyRequest.apply (body : LoyaltyRequest) (u : User) : User :=
  let points := max 0 (u.loyaltyPoints + body.pointsDelta)
  { u with loyaltyPoints := points, loyaltyTier := orElse body.tier (loyaltyTierOf points) }

def updateLoyalty (s : Store) (token : Bearer) (userId : ℤ) (body : LoyaltyRequest) :
    Except Error (User × Store) :=
  adminEdit s token userId userNotFound body.apply

/-! ### Guest intelligence -/

def guestNotFound : Error := .http 404 "Guest not found"

def addGuestNote (env : Env) (s : Store) (token : Bearer) (userId : ℤ) (body : NoteCreate) :
    Except Error (GuestNote × Store) := do
  let user ← getCurrentUser s token
  requireAdmin user
  let _ ← found (s.users.get userId) guestNotFound
  let row := {
    id := s.guestNotes.next, userId, authorId := some user.id, content := body.content
    noteType := body.noteType, createdAt := env.now : GuestNote }
  return (row, { s with guestNotes := s.guestNotes.insert row })

def deleteGuestNote (s : Store) (token : Bearer) (userId noteId : ℤ) :
    Except Error (Unit × Store) := do
  let user ← getCurrentUser s token
  requireAdmin user
  let note ← found ((s.guestNotes.get noteId).filter fun n => n.userId = userId)
    (.http 404 "Note not found")
  return ((), { s with guestNotes := s.guestNotes.delete note.id })

def updateGuestSegment (s : Store) (token : Bearer) (userId : ℤ) (segment : Option String) :
    Except Error (User × Store) :=
  adminEdit s token userId guestNotFound fun u => { u with segment }

def blacklistGuest (s : Store) (token : Bearer) (userId : ℤ) (body : BanRequest) :
    Except Error (User × Store) :=
  adminEdit s token userId guestNotFound body.apply

end HotelMs
