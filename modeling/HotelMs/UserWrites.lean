import HotelMs.Frame

/-!
# What a request writes to the table of users

One inversion for all endpoints: a request that goes through inserts a row,
rewrites one or deletes one, and which row that is and what becomes of it is
read off the request.
-/

namespace HotelMs

open Tables

/-! ### New rows -/

/-- The address that the provider vouches for, as the code stores it. -/
def providerEmail (ext : Ext) : PublicRequest → Option String
  | .socialLogin (some profile) => some (normalEmail ext (profile.email.getD ""))
  | .googleLogin (.ok profile) => some (normalEmail ext (profile.email.getD ""))
  | _ => none

def verifiedUser (ext : Ext) (env : Env) (s : Store) (email fullName : String)
    (photoUrl : Option String) : User :=
  { newUser env.now (some fullName) email (ext.hashpw env.salt env.token) s.users.next with
    isEmailVerified := true, photoUrl }

def addedUser (ext : Ext) (env : Env) (s : Store) (caller : User) (data : UserAdminCreate)
    (role : Role) : User :=
  { newUser env.now (some data.fullName) (ext.lower data.email)
      (ext.hashpw env.salt data.password) s.users.next with
    role, phone := data.phone, department := data.department, notes := data.notes
    hotelId := getOptionalHotel caller }

/-- A user that an admin adds: the caller, and the role that the label names. -/
structure Admits (ext : Ext) (env : Env) (s : Store) (token : Bearer) (data : UserAdminCreate)
    (caller : User) (role : Role) : Prop where
  signedIn : getCurrentUser s token = .ok caller
  admin : requireAdmin caller = .ok ()
  label : Role.ofString? data.role = some role
  fits : userFits s (addedUser ext env s caller data role)

inductive Adds (ext : Ext) (env : Env) (s : Store) (token : Bearer) : Request → User → Prop
  | registered (data : RegisterRequest) :
      Adds ext env s token (.auth (.register data)) (registeredUser ext env s data)
  | asserted (r : PublicRequest) (email fullName : String) (photoUrl : Option String)
      (hemail : providerEmail ext r = some email) :
      Adds ext env s token (.auth r) (verifiedUser ext env s email fullName photoUrl)
  | admitted (data : UserAdminCreate) (caller : User) (role : Role)
      (h : Admits ext env s token data caller role) :
      Adds ext env s token (.user (.add data)) (addedUser ext env s caller data role)

/-! ### Rewritten rows -/

/-- The user whose photo `google_login` replaces by the provider's, and by which. -/
def googleSync (ext : Ext) (s : Store) (reply : Except String ProviderUser) :
    Option (User × String) := do
  let profile ← reply.toOption
  let url ← profile.picture.filter (· ≠ "")
  let user ← getUserByEmail s (normalEmail ext (profile.email.getD ""))
  if !hasCustomPhoto (user.photoUrl.getD "") && user.photoUrl.getD "" ≠ url then
    return (user, url) else none

/-- An edit by an admin that goes through: the row it names, and the role it gives. -/
structure Edits (ext : Ext) (s : Store) (token : Bearer) (userId : ℤ) (data : UserAdminUpdate)
    (u : User) (role : Option Role) : Prop where
  admin : ∃ caller, getCurrentUser s token = .ok caller ∧ requireAdmin caller = .ok ()
  target : s.users.get userId = some u
  label : parseRole data.role = .ok role
  fits : userFits s (data.apply ext role u)

/-- A request of an admin about one row that goes through, by what becomes of the row. -/
structure Manages (s : Store) (token : Bearer) (userId : ℤ) (f : User → User) (u : User) :
    Prop where
  admin : ∃ caller, getCurrentUser s token = .ok caller ∧ requireAdmin caller = .ok ()
  target : s.users.get userId = some u
  fits : userFits s (f u)

structure Updates (ext : Ext) (s : Store) (token : Bearer) (data : ProfileUpdate) (u : User) :
    Prop where
  caller : getCurrentUser s token = .ok u
  fits : userFits s (data.apply ext u)

structure Repasses (ext : Ext) (s : Store) (token : Bearer) (data : PasswordChange) (u : User) :
    Prop where
  caller : getCurrentUser s token = .ok u
  known : ext.checkpw data.currentPassword u.hashedPassword = true
  fits : userFits s u

/-- A password reset that goes through, by the token row that it uses up. -/
structure Resets (env : Env) (s : Store) (secret new : String) (record : OneTimeToken) : Prop where
  live : liveToken s.passwordResets env.now secret = some record
  long : 8 ≤ new.length

def photoReply (s : Store) (token : Bearer) : PhotoRequest → Except Error (User × Store)
  | .delete => deletePhoto s token
  | .upload contentType size uploaded => uploadPhoto s token contentType size uploaded

/-- The row an endpoint built on `adminEdit` alone names, and what becomes of it. -/
def UserRequest.change : UserRequest → Option (ℤ × (User → User))
  | .ban userId body => some (userId, body.apply)
  | .toggleVip userId => some (userId, fun u => { u with vipStatus := !u.vipStatus })
  | .loyalty userId body => some (userId, body.apply)
  | .segment userId label => some (userId, fun u => { u with segment := label })
  | .blacklist userId body => some (userId, body.apply)
  | _ => none

inductive Changes (ext : Ext) (env : Env) (s : Store) (token : Bearer) :
    Request → ℤ → (User → User) → Prop
  | verified (secret : String) (record : OneTimeToken)
      (hlive : liveToken s.emailVerifications env.now secret = some record) :
      Changes ext env s token (.auth (.verifyEmail secret)) record.userId
        fun u => { u with isEmailVerified := true }
  | reset (secret new : String) (record : OneTimeToken) (h : Resets env s secret new record) :
      Changes ext env s token (.auth (.resetPassword secret new)) record.userId
        fun u => { u with hashedPassword := ext.hashpw env.salt new }
  | synced (reply : Except String ProviderUser) (u : User) (url : String)
      (hsync : googleSync ext s reply = some (u, url))
      (hok : ∃ a, googleLogin ext env s reply = .ok a) :
      Changes ext env s token (.auth (.googleLogin reply)) u.id
        fun u => { u with photoUrl := some url }
  | profile (data : ProfileUpdate) (u : User) (h : Updates ext s token data u) :
      Changes ext env s token (.guest (.updateProfile data)) u.id (data.apply ext)
  | password (data : PasswordChange) (u : User) (h : Repasses ext s token data u) :
      Changes ext env s token (.guest (.changePassword data)) u.id
        fun u => { u with hashedPassword := ext.hashpw env.salt data.newPassword }
  | photo (r : PhotoRequest) (u : User) (photoUrl : Option String)
      (hok : ∃ a, photoReply s token r = .ok a ∧ a.1.id = u.id) :
      Changes ext env s token (.photo r) u.id fun u => { u with photoUrl }
  | edited (userId : ℤ) (data : UserAdminUpdate) (u : User) (role : Option Role)
      (h : Edits ext s token userId data u role) :
      Changes ext env s token (.user (.edit userId data)) userId (data.apply ext role)
  | managed (r : UserRequest) (userId : ℤ) (f : User → User) (u : User)
      (hchange : r.change = some (userId, f)) (h : Manages s token userId f u) :
      Changes ext env s token (.user r) userId f

inductive UserWrite (ext : Ext) (env : Env) (s : Store) (token : Bearer) (r : Request) :
    Table User → Prop
  | same : UserWrite ext env s token r s.users
  | added (u : User) (h : Adds ext env s token r u) (hfits : userFits s u) :
      UserWrite ext env s token r (s.users.insert u)
  | changed (k : ℤ) (f : User → User) (h : Changes ext env s token r k f) :
      UserWrite ext env s token r (s.users.update k f)
  | removed (userId k : ℤ) (hr : r = .user (.remove userId)) :
      UserWrite ext env s token r (s.users.delete k)

section

variable {ext : Ext} {env : Env} {s : Store} {token : Bearer}

/-! ### One lemma a function -/

theorem updateUser_eq_ok {k : ℤ} {f : User → User} {r : Option User × Store} {u : User}
    (hget : s.users.get k = some u) :
    updateUser s k f = .ok r ↔ userFits s (f u) ∧
      r = (some (f u), { s with users := s.users.update k f }) := by
  unfold updateUser
  rw [hget]
  exact ensure_pure_eq_ok

theorem get_of_getCurrentUser {u : User} (h : getCurrentUser s token = .ok u) :
    s.users.get u.id = some u := by
  obtain ⟨id, _, hget⟩ := getCurrentUser_eq_ok.mp h
  obtain ⟨hmem, hid⟩ := (Table.get_eq_some _).mp hget
  exact (Table.get_eq_some _).mpr ⟨hmem, rfl⟩

theorem registerVerified_eq_ok {email fullName : String} {photoUrl : Option String}
    {r : User × Store} :
    registerVerified ext env s email fullName photoUrl = .ok r ↔
      userFits s (verifiedUser ext env s email fullName photoUrl) ∧
        r = (verifiedUser ext env s email fullName photoUrl,
          { s with users := s.users.insert (verifiedUser ext env s email fullName photoUrl) }) :=
  createUser_eq_ok

theorem addUser_eq_ok {data : UserAdminCreate} {r : User × Store} :
    addUser ext env s token data = .ok r ↔ ∃ caller role,
      Admits ext env s token data caller role ∧
        r = (addedUser ext env s caller data role,
          { s with users := s.users.insert (addedUser ext env s caller data role) }) := by
  unfold addUser
  simp only [bind_eq_ok, found_eq_ok, createUser_eq_ok]
  constructor
  · intro h
    obtain ⟨caller, hcaller, _, hadmin, role, hrole, hfits, rfl⟩ := h
    exact ⟨caller, role, ⟨hcaller, hadmin, hrole, hfits⟩, rfl⟩
  · intro h
    obtain ⟨caller, role, h, rfl⟩ := h
    exact ⟨caller, h.signedIn, (), h.admin, role, h.label, h.fits, rfl⟩

theorem adminEdit_eq_ok {userId : ℤ} {missing : Error} {f : User → User} {r : User × Store} :
    adminEdit s token userId missing f = .ok r ↔ ∃ u, Manages s token userId f u ∧
      r = (f u, { s with users := s.users.update userId f }) := by
  unfold adminEdit
  simp only [bind_eq_ok, found_eq_ok, pure_eq_ok]
  constructor
  · intro h
    obtain ⟨caller, hcaller, _, hadmin, updated, hu, row, hrow, rfl⟩ := h
    cases hget : s.users.get userId with
    | none =>
      unfold updateUser at hu
      simp only [hget, Except.ok.injEq] at hu
      rw [← hu] at hrow
      cases hrow
    | some u =>
      obtain ⟨hfits, rfl⟩ := (updateUser_eq_ok hget).mp hu
      cases hrow
      exact ⟨u, ⟨⟨caller, hcaller, hadmin⟩, hget, hfits⟩, rfl⟩
  · intro h
    obtain ⟨u, h, rfl⟩ := h
    obtain ⟨caller, hcaller, hadmin⟩ := h.admin
    exact ⟨caller, hcaller, (), hadmin, _, (updateUser_eq_ok h.target).mpr ⟨h.fits, rfl⟩, _, rfl,
      rfl⟩

theorem editUser_eq_ok {userId : ℤ} {data : UserAdminUpdate} {r : User × Store} :
    editUser ext s token userId data = .ok r ↔ ∃ u role, Edits ext s token userId data u role ∧
      r = (data.apply ext role u,
        { s with users := s.users.update userId (data.apply ext role) }) := by
  unfold editUser
  simp only [bind_eq_ok, found_eq_ok, adminEdit_eq_ok]
  constructor
  · intro h
    obtain ⟨_, _, _, _, _, _, role, hrole, u, h, rfl⟩ := h
    exact ⟨u, role, ⟨h.admin, h.target, hrole, h.fits⟩, rfl⟩
  · intro h
    obtain ⟨u, role, h, rfl⟩ := h
    obtain ⟨caller, hcaller, hadmin⟩ := h.admin
    exact ⟨caller, hcaller, (), hadmin, u, h.target, role, h.label, u,
      ⟨h.admin, h.target, h.fits⟩, rfl⟩

theorem updateProfile_eq_ok {data : ProfileUpdate} {r : User × Store} :
    updateProfile ext s token data = .ok r ↔ ∃ u, Updates ext s token data u ∧
      r = (data.apply ext u, { s with users := s.users.update u.id (data.apply ext) }) := by
  unfold updateProfile
  simp only [bind_eq_ok, found_eq_ok, pure_eq_ok]
  constructor
  · intro h
    obtain ⟨u, hcaller, updated, hu, row, hrow, rfl⟩ := h
    obtain ⟨hfits, rfl⟩ := (updateUser_eq_ok (get_of_getCurrentUser hcaller)).mp hu
    cases hrow
    exact ⟨u, ⟨hcaller, hfits⟩, rfl⟩
  · intro h
    obtain ⟨u, h, rfl⟩ := h
    exact ⟨u, h.caller, _,
      (updateUser_eq_ok (get_of_getCurrentUser h.caller)).mpr ⟨h.fits, rfl⟩, _, rfl, rfl⟩

theorem changePassword_eq_ok {data : PasswordChange} {r : Option User × Store} :
    changePassword ext env s token data = .ok r ↔ ∃ u, Repasses ext s token data u ∧
      r = (some { u with hashedPassword := ext.hashpw env.salt data.newPassword },
        { s with users := s.users.update u.id fun u =>
          { u with hashedPassword := ext.hashpw env.salt data.newPassword } }) := by
  unfold changePassword
  simp only [bind_eq_ok, ensure_eq_ok]
  constructor
  · intro h
    obtain ⟨u, hcaller, _, hpw, hu⟩ := h
    obtain ⟨hfits, rfl⟩ := (updateUser_eq_ok (get_of_getCurrentUser hcaller)).mp hu
    exact ⟨u, ⟨hcaller, hpw, hfits⟩, rfl⟩
  · intro h
    obtain ⟨u, h, rfl⟩ := h
    exact ⟨u, h.caller, (), h.known,
      (updateUser_eq_ok (get_of_getCurrentUser h.caller)).mpr ⟨h.fits, rfl⟩⟩

theorem verifyEmail_eq_ok {secret : String} {r : Unit × Store} :
    verifyEmail env s secret = .ok r ↔ ∃ record,
      liveToken s.emailVerifications env.now secret = some record ∧ r = ((), { s with
        users := s.users.update record.userId fun u => { u with isEmailVerified := true }
        emailVerifications := useToken s.emailVerifications env.now record }) := by
  unfold verifyEmail
  simp only [bind_eq_ok, found_eq_ok, pure_eq_ok, @eq_comm _ _ r]

theorem resetPassword_eq_ok {secret new : String} {r : Unit × Store} :
    resetPassword ext env s secret new = .ok r ↔ ∃ record, Resets env s secret new record ∧
      r = ((), { s with
        users := s.users.update record.userId fun u =>
          { u with hashedPassword := ext.hashpw env.salt new }
        passwordResets := useToken s.passwordResets env.now record }) := by
  unfold resetPassword
  simp only [bind_eq_ok, found_eq_ok, ensure_eq_ok, pure_eq_ok]
  constructor
  · intro h
    obtain ⟨record, hlive, _, hlong, rfl⟩ := h
    exact ⟨record, ⟨hlive, hlong⟩, rfl⟩
  · intro h
    obtain ⟨record, h, rfl⟩ := h
    exact ⟨record, h.live, (), h.long, rfl⟩

/-! ### Requests -/

theorem userWrite_committed {α : Type} {r : Request} {x : Except Error (α × Store)}
    (hx : ∀ a, x = .ok a → UserWrite ext env s token r a.2.users) :
    UserWrite ext env s token r (committed s x).users := by
  cases x with
  | error e => exact .same
  | ok a => exact hx a rfl

theorem adminEdit_userWrite {r : UserRequest} {userId : ℤ} {missing : Error} {f : User → User}
    (hchange : r.change = some (userId, f)) :
    UserWrite ext env s token (.user r)
      (committed s (adminEdit s token userId missing f)).users := by
  refine userWrite_committed fun a ha => ?_
  obtain ⟨u, h, rfl⟩ := adminEdit_eq_ok.mp ha
  exact .changed userId f (.managed r userId f u hchange h)

theorem socialLogin_userWrite (reply : Option ProviderUser) :
    UserWrite ext env s token (.auth (.socialLogin reply))
      (committed s (socialLogin ext env s reply)).users := by
  refine userWrite_committed fun a ha => ?_
  simp only [socialLogin, bind_eq_ok, found_eq_ok] at ha
  obtain ⟨profile, rfl, _, _, ha⟩ := ha
  split at ha
  · rw [pure_eq_ok] at ha
    rw [← ha]
    exact .same
  · simp only [bind_eq_ok, pure_eq_ok] at ha
    obtain ⟨created, hc, rfl⟩ := ha
    obtain ⟨hfits, rfl⟩ := registerVerified_eq_ok.mp hc
    exact .added _ (.asserted _ _ _ _ rfl) hfits

theorem googleLogin_userWrite (reply : Except String ProviderUser) :
    UserWrite ext env s token (.auth (.googleLogin reply))
      (committed s (googleLogin ext env s reply)).users := by
  refine userWrite_committed fun a ha => ?_
  cases reply with
  | error text =>
    simp only [googleLogin, bind_eq_ok] at ha
    obtain ⟨_, hreply, _⟩ := ha
    cases hreply
  | ok profile =>
    have hok : ∃ a, googleLogin ext env s (.ok profile) = .ok a := ⟨a, ha⟩
    simp only [googleLogin, bind_eq_ok] at ha
    obtain ⟨_, hreply, _, _, ha⟩ := ha
    cases hreply
    cases huser : getUserByEmail s (normalEmail ext (profile.email.getD "")) with
    | none =>
      simp only [huser, bind_eq_ok, pure_eq_ok] at ha
      obtain ⟨created, hc, rfl⟩ := ha
      obtain ⟨hfits, rfl⟩ := registerVerified_eq_ok.mp hc
      exact .added _ (.asserted _ _ _ _ rfl) hfits
    | some user =>
      simp only [huser] at ha
      cases hpicture : profile.picture.filter (· ≠ "") with
      | none =>
        simp only [hpicture, pure_eq_ok] at ha
        rw [← ha]
        exact .same
      | some url =>
        simp only [hpicture] at ha
        split at ha
        next hsync =>
          simp only [bind_eq_ok, pure_eq_ok] at ha
          obtain ⟨updated, hu, rfl⟩ := ha
          rw [updateUser_store hu]
          refine .changed _ _ (.synced _ user url ?_ hok)
          simp only [googleSync, Except.toOption, hpicture, huser, Option.bind_eq_bind,
            Option.bind_some, if_pos hsync, Option.pure_def]
        · rw [pure_eq_ok] at ha
          rw [← ha]
          exact .same

theorem setPhoto_userWrite {r : PhotoRequest} {photoUrl : Option String} {a : User × Store}
    (hr : photoReply s token r = .ok a) (ha : setPhoto s token photoUrl = .ok a) :
    UserWrite ext env s token (.photo r) a.2.users := by
  simp only [setPhoto, bind_eq_ok, found_eq_ok, pure_eq_ok] at ha
  obtain ⟨user, huser, updated, hu, row, hrow, rfl⟩ := ha
  obtain ⟨_, rfl⟩ := (updateUser_eq_ok (get_of_getCurrentUser huser)).mp hu
  cases hrow
  exact .changed _ _ (.photo r user photoUrl ⟨_, hr, rfl⟩)

theorem servePublic_userWrite (r : PublicRequest) :
    UserWrite ext env s token (.auth r) (servePublic ext env s r).users := by
  have hframe : TableName.users ∉ r.writes →
      UserWrite ext env s token (.auth r) (servePublic ext env s r).users := by
    intro hw
    have husers : (servePublic ext env s r).users = s.users :=
      servePublic_agree ext env s r .users hw
    rw [husers]
    exact .same
  cases r with
  | register data =>
    refine userWrite_committed fun a ha => ?_
    obtain ⟨hfits, rfl⟩ := registerUser_eq_ok.mp ha
    exact .added _ (.registered data) hfits
  | login email password => exact .same
  | socialLogin reply => exact socialLogin_userWrite reply
  | googleLogin reply => exact googleLogin_userWrite reply
  | verifyEmail secret =>
    refine userWrite_committed fun a ha => ?_
    obtain ⟨record, hlive, rfl⟩ := verifyEmail_eq_ok.mp ha
    exact .changed _ _ (.verified secret record hlive)
  | resendVerification email => exact hframe (by simp [PublicRequest.writes])
  | forgotPassword email => exact hframe (by simp [PublicRequest.writes])
  | resetPassword secret new =>
    refine userWrite_committed fun a ha => ?_
    obtain ⟨record, h, rfl⟩ := resetPassword_eq_ok.mp ha
    exact .changed _ _ (.reset secret new record h)

theorem serveGuest_userWrite (r : GuestRequest) :
    UserWrite ext env s token (.guest r) (serveGuest ext env s token r).users := by
  by_cases hw : TableName.users ∈ r.writes
  · cases r with
    | updateProfile data =>
      refine userWrite_committed fun a ha => ?_
      obtain ⟨u, h, rfl⟩ := updateProfile_eq_ok.mp ha
      exact .changed _ _ (.profile data u h)
    | changePassword data =>
      refine userWrite_committed fun a ha => ?_
      obtain ⟨u, h, rfl⟩ := changePassword_eq_ok.mp ha
      exact .changed _ _ (.password data u h)
    | _ => simp [GuestRequest.writes] at hw
  · have husers : (serveGuest ext env s token r).users = s.users :=
      serveGuest_agree ext env s token r .users hw
    rw [husers]
    exact .same

theorem servePhoto_userWrite (r : PhotoRequest) :
    UserWrite ext env s token (.photo r) (servePhoto s token r).users := by
  cases r with
  | delete => exact userWrite_committed fun a ha => setPhoto_userWrite ha ha
  | upload contentType size uploaded =>
    refine userWrite_committed fun a ha => ?_
    have hr : photoReply s token (.upload contentType size uploaded) = .ok a := ha
    simp only [uploadPhoto, bind_eq_ok] at ha
    obtain ⟨_, _, _, _, _, _, _, _, ha⟩ := ha
    exact setPhoto_userWrite hr ha

theorem serveUser_userWrite (r : UserRequest) :
    UserWrite ext env s token (.user r) (serveUser ext env s token r).users := by
  have hframe : TableName.users ∉ r.writes →
      UserWrite ext env s token (.user r) (serveUser ext env s token r).users := by
    intro hw
    have husers : (serveUser ext env s token r).users = s.users :=
      serveUser_agree ext env s token r .users hw
    rw [husers]
    exact .same
  cases r with
  | add data =>
    refine userWrite_committed fun a ha => ?_
    obtain ⟨caller, role, h, rfl⟩ := addUser_eq_ok.mp ha
    exact .added _ (.admitted data caller role h) h.fits
  | edit userId data =>
    refine userWrite_committed fun a ha => ?_
    obtain ⟨u, role, h, rfl⟩ := editUser_eq_ok.mp ha
    exact .changed _ _ (.edited userId data u role h)
  | remove userId =>
    refine userWrite_committed fun a ha => ?_
    simp only [removeUser, bind_eq_ok, pure_eq_ok] at ha
    obtain ⟨_, _, _, _, row, _, _, _, rfl⟩ := ha
    exact .removed userId row.id rfl
  | ban userId body => exact adminEdit_userWrite rfl
  | toggleVip userId => exact adminEdit_userWrite rfl
  | loyalty userId body => exact adminEdit_userWrite rfl
  | addNote userId body => exact hframe (by simp [UserRequest.writes])
  | deleteNote userId noteId => exact hframe (by simp [UserRequest.writes])
  | segment userId label => exact adminEdit_userWrite rfl
  | blacklist userId body => exact adminEdit_userWrite rfl

end

theorem handle_userWrite (ext : Ext) (s : Store) (c : Call) :
    UserWrite ext c.env s c.token c.request (handle ext s c).users := by
  obtain ⟨env, token, r⟩ := c
  have hframe : TableName.users ∉ r.writes →
      UserWrite ext env s token r (serve ext env s token r).users := by
    intro hw
    have husers : (serve ext env s token r).users = s.users :=
      serve_agree ext env s token r .users hw
    rw [husers]
    exact .same
  cases r with
  | auth r => exact servePublic_userWrite r
  | guest r => exact serveGuest_userWrite r
  | photo r => exact servePhoto_userWrite r
  | user r => exact serveUser_userWrite r
  | desk r => exact hframe (by cases r <;> simp [Request.writes, DeskRequest.writes])
  | hotel r => exact hframe (by cases r <;> simp [Request.writes, HotelRequest.writes])
  | roomType r => exact hframe (by simp [Request.writes])
  | room r => exact hframe (by simp [Request.writes])
  | pricing r => exact hframe (by simp [Request.writes])
  | blackout r => exact hframe (by simp [Request.writes])
  | read => exact hframe (by simp [Request.writes])

/-! ### Rows before and after -/

/-- A change of rows that keeps ids is read off the row it changes. -/
theorem get_update_user {t : Table User} {k k' : ℤ} {f : User → User} {u' : User}
    (hf : ∀ u, (f u).id = u.id) (h : (t.update k f).get k' = some u') :
    ∃ u, t.get k' = some u ∧ u' = if k' = k then f u else u := by
  rw [Table.get_update] at h
  obtain ⟨u, hu, rfl⟩ := Option.map_eq_some_iff.mp h
  refine ⟨u, hu, ?_⟩
  have hkey : u.id = k' := ((Table.get_eq_some _).mp hu).2
  split
  next hk =>
    have hid : (f u).id = k := by rw [hf, hkey, hk]
    exact stamp_eq_self hid
  next => rfl

theorem get_update_of_get {t : Table User} {k : ℤ} {f : User → User} {u : User}
    (hf : (f u).id = u.id) (h : t.get k = some u) : (t.update k f).get k = some (f u) := by
  rw [Table.get_update, h, Option.map_some, if_pos rfl]
  exact congrArg some (stamp_eq_self (hf.trans ((Table.get_eq_some _).mp h).2))

theorem get_insert_user {t : Table User} {v u' : User} {k : ℤ} (hk : k ≠ t.next)
    (h : (t.insert v).get k = some u') : t.get k = some u' := by
  obtain ⟨hmem, hkey⟩ := (Table.get_eq_some _).mp h
  rcases (Table.mem_insert _).mp hmem with hold | rfl
  · exact (Table.get_eq_some _).mpr ⟨hold, hkey⟩
  · exact absurd hkey.symm hk

/-- These endpoints write six fields only. -/
theorem UserRequest.change_eq {r : UserRequest} {k : ℤ} {f : User → User}
    (h : r.change = some (k, f)) (u : User) :
    f u = { u with
      isBanned := (f u).isBanned, banReason := (f u).banReason, vipStatus := (f u).vipStatus
      loyaltyPoints := (f u).loyaltyPoints, loyaltyTier := (f u).loyaltyTier
      segment := (f u).segment } := by
  cases r <;> simp only [UserRequest.change, Option.some.injEq, Prod.mk.injEq, reduceCtorEq] at h
  all_goals
    obtain ⟨_, rfl⟩ := h
    rfl

theorem Changes.id_eq {ext : Ext} {env : Env} {s : Store} {token : Bearer} {r : Request} {k : ℤ}
    {f : User → User} (h : Changes ext env s token r k f) (u : User) : (f u).id = u.id := by
  cases h with
  | managed r userId f v hchange h => rw [UserRequest.change_eq hchange u]
  | _ => rfl

theorem Adds.id_eq {ext : Ext} {env : Env} {s : Store} {token : Bearer} {r : Request} {u : User}
    (h : Adds ext env s token r u) : u.id = s.users.next := by
  cases h <;> rfl

theorem UserWrite.next_le {ext : Ext} {env : Env} {s : Store} {token : Bearer} {r : Request}
    {t : Table User} (h : UserWrite ext env s token r t) : s.users.next ≤ t.next := by
  cases h with
  | added u _ _ =>
    show s.users.next ≤ s.users.next + 1
    omega
  | _ => exact le_refl s.users.next

end HotelMs
