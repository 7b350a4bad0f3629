import HotelMs.Bookings

/-!
# Accounts

`services/auth.py`, `repositories/user_repository.py`,
`api/v1/public/auth.py` and `api/v1/user/profile.py`.
-/

namespace HotelMs

open Tables

/-! ### Repository -/

-- the column defaults; the string default of `loyalty_tier` is a quoted
-- literal, so its quotes are part of the value
def newUser (now : ℤ) (fullName : Option String) (email hashedPassword : String) (id : ℤ) :
    User where
  id := id
  fullName := fullName
  email := email
  hashedPassword := hashedPassword
  role := .guest
  phone := none
  photoUrl := none
  isEmailVerified := false
  hotelId := none
  createdAt := now
  isBanned := false
  banReason := none
  vipStatus := false
  loyaltyPoints := 0
  loyaltyTier := "'bronze'"
  notes := none
  department := none
  segment := none
  riskScore := 0

/-- The constraints a stored `users` row meets: `email` is unique and `hotel_id`
references a hotel. -/
def userFits (s : Store) (u : User) : Prop :=
  s.users.any (fun v => v.email = u.email && v.id ≠ u.id) = false ∧
    ∀ h ∈ u.hotelId, (s.hotels.get h).isSome

instance (s : Store) (u : User) : Decidable (userFits s u) :=
  inferInstanceAs (Decidable (_ ∧ ∀ h ∈ u.hotelId, (s.hotels.get h).isSome = true))

def createUser (s : Store) (user : User) : Except Error (User × Store) := do
  ensure (userFits s user) .integrity
  return (user, { s with users := s.users.insert user })

def updateUser (s : Store) (userId : ℤ) (f : User → User) : Except Error (Option User × Store) :=
  match s.users.get userId with
  | none => .ok (none, s)
  | some user => do
    ensure (userFits s (f user)) .integrity
    return (some (f user), { s with users := s.users.update userId f })

theorem updateUser_store {s : Store} {userId : ℤ} {f : User → User} {r : Option User × Store}
    (h : updateUser s userId f = .ok r) : r.2.users = s.users.update userId f := by
  unfold updateUser at h
  split at h
  next hget =>
    cases h
    exact (Table.update_of_get_eq_none _ hget).symm
  next =>
    simp only [bind_eq_ok, pure_eq_ok] at h
    obtain ⟨_, _, rfl⟩ := h
    rfl

def getUserByEmail (s : Store) (email : String) : Option User :=
  (s.users.select fun u => u.email = email).head?

/-! ### Registration and login -/

def normalEmail (ext : Ext) (email : String) : String := PyText.strip (ext.lower email)

def registeredUser (ext : Ext) (env : Env) (s : Store) (data : RegisterRequest) : User :=
  { newUser env.now (some data.fullName) (normalEmail ext data.email)
      (ext.hashpw env.salt data.password) s.users.next with hotelId := data.hotelId }

def registerUser (ext : Ext) (env : Env) (s : Store) (data : RegisterRequest) :
    Except Error (User × Store) :=
  createUser s (registeredUser ext env s data)

theorem createUser_eq_ok {s : Store} {u : User} {r : User × Store} :
    createUser s u = .ok r ↔ userFits s u ∧ r = (u, { s with users := s.users.insert u }) :=
  ensure_pure_eq_ok

theorem registerUser_eq_ok {ext : Ext} {env : Env} {s : Store} {data : RegisterRequest}
    {r : User × Store} :
    registerUser ext env s data = .ok r ↔ userFits s (registeredUser ext env s data) ∧
      r = (registeredUser ext env s data,
        { s with users := s.users.insert (registeredUser ext env s data) }) :=
  createUser_eq_ok

structure TokenPayload where
  userId : ℤ
  role : Role
  hotelId : Option ℤ
  deriving DecidableEq

def tokenPayload (user : User) : TokenPayload := ⟨user.id, user.role, user.hotelId⟩

def authenticateUser (ext : Ext) (s : Store) (email password : String) : Option User :=
  (getUserByEmail s (normalEmail ext email)).filter fun u => ext.checkpw password u.hashedPassword

theorem authenticateUser_eq_some {ext : Ext} {s : Store} {email password : String} {u : User}
    (h : authenticateUser ext s email password = some u) :
    u ∈ s.users.rows ∧ u.email = normalEmail ext email ∧
      ext.checkpw password u.hashedPassword = true := by
  obtain ⟨hfirst, hpw⟩ := Option.filter_eq_some_iff.mp h
  obtain ⟨hmem, hemail⟩ := (Table.mem_select _).mp (List.mem_of_mem_head? hfirst)
  exact ⟨hmem, of_decide_eq_true hemail, hpw⟩

def loginEndpoint (ext : Ext) (s : Store) (email password : String) :
    Except Error TokenPayload := do
  let user ← found (authenticateUser ext s email password)
    (.http 401 "Invalid email or password")
  return tokenPayload user

/-! ### Sign-in through a provider -/

/-- A parameter that is there and not the empty text. -/
def given (a : Option String) : Option String := a.filter (· ≠ "")

def orElse (a : Option String) (b : String) : String := (a.filter (· ≠ "")).getD b

def beforeAt (email : String) : String := String.ofList (email.toList.takeWhile (· ≠ '@'))

structure ProviderUser where
  email : Option String
  fullName : Option String
  name : Option String
  picture : Option String

def registerVerified (ext : Ext) (env : Env) (s : Store) (email fullName : String)
    (photoUrl : Option String) : Except Error (User × Store) :=
  createUser s {
    newUser env.now (some fullName) email (ext.hashpw env.salt env.token) s.users.next with
    isEmailVerified := true, photoUrl }

/-- `none`: the provider did not accept the token. -/
def socialLogin (ext : Ext) (env : Env) (s : Store) (reply : Option ProviderUser) :
    Except Error (TokenPayload × Store) := do
  let profile ← found reply (.http 401 "Invalid or expired Supabase token")
  let email := normalEmail ext (profile.email.getD "")
  ensure (email ≠ "") (.http 400 "No email returned from provider")
  match getUserByEmail s email with
  | some user => return (tokenPayload user, s)
  | none => do
    let fullName := orElse profile.fullName (orElse profile.name (beforeAt email))
    let created ← registerVerified ext env s email fullName none
    return (tokenPayload created.1, created.2)

def contains (needle text : String) : Bool :=
  (text.toList.tails).any fun rest => needle.toList.isPrefixOf rest

def hasCustomPhoto (photo : String) : Bool :=
  contains "allstay.rest/storage" photo || contains "hotel-avatars" photo

/-- On failure `reply` is the text of the 401. -/
def googleLogin (ext : Ext) (env : Env) (s : Store) (reply : Except String ProviderUser) :
    Except Error (TokenPayload × Store) := do
  let profile ← reply.mapError (.http 401)
  let email := normalEmail ext (profile.email.getD "")
  ensure (email ≠ "") (.http 400 "No email returned from Google")
  let picture := profile.picture.filter (· ≠ "")
  match getUserByEmail s email with
  | none => do
    let created ← registerVerified ext env s email (orElse profile.name (beforeAt email)) picture
    return (tokenPayload created.1, created.2)
  | some user =>
    match picture with
    | none => return (tokenPayload user, s)
    | some url =>
      let current := user.photoUrl.getD ""
      if !hasCustomPhoto current && current ≠ url then do
        let updated ← updateUser s user.id fun u => { u with photoUrl := some url }
        return (tokenPayload user, updated.2)
      else return (tokenPayload user, s)

/-! ### One-time tokens -/

def verifyTtl : ℤ := 24 * 3600
def resetTtl : ℤ := 30 * 60

-- the token column is unique, and the clock and the random token are the environment's
def createOneTimeToken (t : Table OneTimeToken) (env : Env) (userId ttl : ℤ) :
    Except Error (Table OneTimeToken) := do
  ensure (t.any (fun r => r.token = env.token) = false) .integrity
  return t.insert {
    id := t.next, userId, token := env.token, expiresAt := env.now + ttl
    usedAt := none : OneTimeToken }

def liveToken (t : Table OneTimeToken) (now : ℤ) (token : String) : Option OneTimeToken :=
  (t.select fun r => r.token = token && r.usedAt = none && now < r.expiresAt).head?

def useToken (t : Table OneTimeToken) (now : ℤ) (record : OneTimeToken) : Table OneTimeToken :=
  t.update record.id fun r => { r with usedAt := some now }

def verifyEmail (env : Env) (s : Store) (token : String) : Except Error (Unit × Store) := do
  let record ← found (liveToken s.emailVerifications env.now token)
    (.http 400 "Invalid or expired verification token")
  return ((), { s with
    users := s.users.update record.userId fun u => { u with isEmailVerified := true }
    emailVerifications := useToken s.emailVerifications env.now record })

/-- An unknown or verified address is answered alike, and nothing is stored. -/
def resendVerification (ext : Ext) (env : Env) (s : Store) (email : String) :
    Except Error (Unit × Store) :=
  match getUserByEmail s (ext.lower email) with
  | none => .ok ((), s)
  | some user =>
    if user.isEmailVerified then .ok ((), s)
    else do
      let t ← createOneTimeToken s.emailVerifications env user.id verifyTtl
      return ((), { s with emailVerifications := t })

def forgotPassword (ext : Ext) (env : Env) (s : Store) (email : String) :
    Except Error (Unit × Store) :=
  match getUserByEmail s (ext.lower email) with
  | none => .ok ((), s)
  | some user => do
    let t ← createOneTimeToken s.passwordResets env user.id resetTtl
    return ((), { s with passwordResets := t })

def resetPassword (ext : Ext) (env : Env) (s : Store) (token newPassword : String) :
    Except Error (Unit × Store) := do
  let record ← found (liveToken s.passwordResets env.now token)
    (.http 400 "Invalid or expired reset token")
  ensure (8 ≤ newPassword.length) (.http 422 "Password must be at least 8 characters")
  return ((), { s with
    users := s.users.update record.userId fun u =>
      { u with hashedPassword := ext.hashpw env.salt newPassword }
    passwordResets := useToken s.passwordResets env.now record })

/-! ### Profile -/

def userNotFound : Error := .http 404 "User not found"

def ProfileUpdate.apply (ext : Ext) (data : ProfileUpdate) (u : User) : User :=
  { u with
    fullName := data.fullName.or u.fullName
    email := (data.email.map ext.lower).getD u.email
    phone := data.phone.or u.phone }

def updateProfile (ext : Ext) (s : Store) (token : Bearer) (data : ProfileUpdate) :
    Except Error (User × Store) := do
  let user ← getCurrentUser s token
  let updated ← updateUser s user.id (data.apply ext)
  let row ← found updated.1 userNotFound
  return (row, updated.2)

def changePassword (ext : Ext) (env : Env) (s : Store) (token : Bearer) (data : PasswordChange) :
    Except Error (Option User × Store) := do
  let user ← getCurrentUser s token
  ensure (ext.checkpw data.currentPassword user.hashedPassword = true)
    (.http 400 "Current password is incorrect")
  updateUser s user.id fun u => { u with hashedPassword := ext.hashpw env.salt data.newPassword }

-- the avatar store is outside the database: `uploaded` is the URL it answers,
-- `none` when it raises
def setPhoto (s : Store) (token : Bearer) (photoUrl : Option String) :
    Except Error (User × Store) := do
  let user ← getCurrentUser s token
  let updated ← updateUser s user.id fun u => { u with photoUrl }
  let row ← found updated.1 userNotFound
  return (row, updated.2)

def deletePhoto (s : Store) (token : Bearer) : Except Error (User × Store) := setPhoto s token none

def allowedTypes : List String := ["image/jpeg", "image/png", "image/webp"]
def maxSize : ℕ := 5 * 1024 * 1024

def uploadPhoto (s : Store) (token : Bearer) (contentType : String) (size : ℕ)
    (uploaded : Option String) : Except Error (User × Store) := do
  let _ ← getCurrentUser s token
  ensure (contentType ∈ allowedTypes) (.http 400 "Only JPEG, PNG, and WebP images are allowed.")
  ensure (size ≤ maxSize) (.http 400 "File is too large. Maximum size is 5 MB.")
  let url ← found uploaded .data
  setPhoto s token (some url)

end HotelMs
