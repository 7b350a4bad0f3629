import HotelMs.UserWrites
import HotelMs.Lib.Runs

/-!
# What a request does to the table of users

Which rows it adds, changes or deletes, as far as the profile and the verified
flag of an account go.
-/

namespace HotelMs

open Tables

/-- The fields that `ProfileResponse` shows. -/
structure Profile where
  id : ℤ
  fullName : Option String
  email : String
  phone : Option String
  photoUrl : Option String
  role : Role
  hotelId : Option ℤ
  deriving DecidableEq

def User.profile (u : User) : Profile :=
  ⟨u.id, u.fullName, u.email, u.phone, u.photoUrl, u.role, u.hotelId⟩

inductive UserMove (ext : Ext) (env : Env) (s : Store) (token : Bearer) :
    Request → Table User → Prop
  | same (r : Request) : UserMove ext env s token r s.users
  | quiet (r : Request) (k : ℤ) (f : User → User) (hprofile : ∀ u, (f u).profile = u.profile)
      (hflag : ∀ u, (f u).isEmailVerified = u.isEmailVerified) :
      UserMove ext env s token r (s.users.update k f)
  | joined (r : Request) (u : User) (hid : u.id = s.users.next)
      (hflag : u.isEmailVerified = false) : UserMove ext env s token r (s.users.insert u)
  | asserted (r : PublicRequest) (u : User) (hid : u.id = s.users.next)
      (hemail : providerEmail ext r = some u.email) :
      UserMove ext env s token (.auth r) (s.users.insert u)
  | synced (reply : Except String ProviderUser) (u : User) (url : String)
      (hsync : googleSync ext s reply = some (u, url))
      (hok : ∃ a, googleLogin ext env s reply = .ok a) :
      UserMove ext env s token (.auth (.googleLogin reply))
        (s.users.update u.id fun u => { u with photoUrl := some url })
  | verified (secret : String) (record : OneTimeToken)
      (hlive : liveToken s.emailVerifications env.now secret = some record) :
      UserMove ext env s token (.auth (.verifyEmail secret))
        (s.users.update record.userId fun u => { u with isEmailVerified := true })
  | updated (data : ProfileUpdate) (u : User) (h : Updates ext s token data u) :
      UserMove ext env s token (.guest (.updateProfile data))
        (s.users.update u.id (data.apply ext))
  | photo (r : PhotoRequest) (u : User) (photoUrl : Option String)
      (hok : ∃ a, photoReply s token r = .ok a ∧ a.1.id = u.id) :
      UserMove ext env s token (.photo r) (s.users.update u.id fun u => { u with photoUrl })
  | edited (userId : ℤ) (data : UserAdminUpdate) (u : User) (role : Option Role)
      (h : Edits ext s token userId data u role) :
      UserMove ext env s token (.user (.edit userId data))
        (s.users.update userId (data.apply ext role))
  | removed (userId k : ℤ) : UserMove ext env s token (.user (.remove userId)) (s.users.delete k)

theorem handle_userMove (ext : Ext) (s : Store) (c : Call) :
    UserMove ext c.env s c.token c.request (handle ext s c).users := by
  have hwrite := handle_userWrite ext s c
  obtain ⟨env, token, r⟩ := c
  generalize (handle ext s ⟨env, token, r⟩).users = t at hwrite ⊢
  cases hwrite with
  | same => exact .same _
  | added u h hfits =>
    cases h with
    | registered data => exact .joined _ _ rfl rfl
    | asserted r email fullName photoUrl hemail => exact .asserted r _ rfl hemail
    | admitted data caller role h => exact .joined _ _ rfl rfl
  | changed k f h =>
    cases h with
    | verified secret record hlive => exact .verified secret record hlive
    | reset secret new record h => exact .quiet _ _ _ (fun _ => rfl) fun _ => rfl
    | synced reply u url hsync hok => exact .synced reply u url hsync hok
    | profile data u h => exact .updated data u h
    | password data u h => exact .quiet _ _ _ (fun _ => rfl) fun _ => rfl
    | photo r u photoUrl hok => exact .photo r u photoUrl hok
    | edited userId data u role h => exact .edited _ data u role h
    | managed r userId f u hchange h =>
      exact .quiet _ _ _ (fun u => by rw [UserRequest.change_eq hchange u]; rfl)
        fun u => by rw [UserRequest.change_eq hchange u]
  | removed userId k hr =>
    simp only at hr
    rw [hr]
    exact .removed userId k

end HotelMs
