import HotelMs.UserWrites
import HotelMs.Lib.Runs

/-!
# What accounts below super admin can do to accounts

Runs of requests by callers of whom none is a super admin, on the table `users`.
The admin endpoints ask for an admin role only: they compare neither the hotel
nor the role of the row, and take any role label.
-/

namespace HotelMs

open Tables Runs

/-- The caller the endpoint asks for; the public ones read no token. -/
def Call.caller (s : Store) (c : Call) : Option User :=
  match c.request with
  | .auth _ => none
  | _ => c.token.bind s.users.get

def NotSuperAdmin (s : Store) (c : Call) : Prop := ∀ u ∈ c.caller s, u.role ≠ .superAdmin

instance (s : Store) (c : Call) : Decidable (NotSuperAdmin s c) :=
  inferInstanceAs (Decidable (∀ u ∈ c.caller s, u.role ≠ .superAdmin))

/-- A row of another hotel, or of a super admin. -/
def Foreign (caller u : User) : Prop :=
  u.role = .superAdmin ∨ ∃ h ∈ u.hotelId, caller.hotelId ≠ some h

/-- Whoever is a super admin was one before. -/
def NoneRaised (s s' : Store) : Prop :=
  ∀ u' ∈ s'.users.rows, u'.role = .superAdmin →
    ∃ u ∈ s.users.rows, u.id = u'.id ∧ u.role = .superAdmin

def ForeignKept (caller : User) (s s' : Store) : Prop :=
  ∀ u ∈ s.users.rows, Foreign caller u → u ∈ s'.users.rows

instance (caller u : User) : Decidable (Foreign caller u) :=
  inferInstanceAs (Decidable (u.role = .superAdmin ∨ ∃ h ∈ u.hotelId, caller.hotelId ≠ some h))

instance (s s' : Store) : Decidable (NoneRaised s s') :=
  inferInstanceAs (Decidable (∀ u' ∈ s'.users.rows, u'.role = .superAdmin →
    ∃ u ∈ s.users.rows, u.id = u'.id ∧ u.role = .superAdmin))

instance (caller : User) (s s' : Store) : Decidable (ForeignKept caller s s') :=
  inferInstanceAs (Decidable (∀ u ∈ s.users.rows, Foreign caller u → u ∈ s'.users.rows))

def Confined (s : Store) (c : Call) (s' : Store) : Prop :=
  NoneRaised s s' ∧ ∀ caller ∈ c.caller s, caller.role = .hotelAdmin → ForeignKept caller s s'

theorem noneRaised_of_users {s s' : Store} (h : s'.users = s.users) : NoneRaised s s' := by
  intro u hu hr
  rw [h] at hu
  exact ⟨u, hu, rfl, hr⟩

theorem foreignKept_of_users {s s' : Store} (caller : User) (h : s'.users = s.users) :
    ForeignKept caller s s' := by
  intro u hu _
  rw [h]
  exact hu

theorem NoneRaised.refl (s : Store) : NoneRaised s s := noneRaised_of_users rfl

theorem ForeignKept.refl (caller : User) (s : Store) : ForeignKept caller s s :=
  foreignKept_of_users caller rfl

theorem confined_of_users {s s' : Store} {c : Call} (h : s'.users = s.users) : Confined s c s' :=
  ⟨noneRaised_of_users h, fun caller _ _ => foreignKept_of_users caller h⟩

theorem NoneRaised.trans {s s' s'' : Store} (h : NoneRaised s s') (h' : NoneRaised s' s'') :
    NoneRaised s s'' := by
  intro u'' hu'' hr''
  obtain ⟨u', hu', hid', hr'⟩ := h' u'' hu'' hr''
  obtain ⟨u, hu, hid, hr⟩ := h u' hu' hr'
  exact ⟨u, hu, hid.trans hid', hr⟩

/-! ### Writes to the table -/

section

variable {s : Store} {userId : ℤ} {f : User → User}

theorem noneRaised_insert {row : User} (hrow : row.role ≠ .superAdmin) :
    NoneRaised s { s with users := s.users.insert row } := by
  intro u hu hr
  rcases (Table.mem_insert _).mp hu with hu | rfl
  · exact ⟨u, hu, rfl, hr⟩
  · exact absurd hr hrow

theorem noneRaised_update {s' : Store} (hs' : s'.users = s.users.update userId f)
    (hf : ∀ u ∈ s.users.get userId, (f u).role = .superAdmin → u.role = .superAdmin) :
    NoneRaised s s' := by
  intro u' hu' hr
  rw [hs'] at hu'
  obtain ⟨u, hu, rfl⟩ := (Table.mem_update _).mp hu'
  split at hr
  next hid =>
    rw [if_pos hid]
    refine ⟨u, hu, rfl, hf u ((Table.get_eq_some _).mpr ⟨hu, hid⟩) hr⟩
  next hid =>
    rw [if_neg hid]
    exact ⟨u, hu, rfl, hr⟩

theorem foreignKept_update {caller : User} {s' : Store} (hs' : s'.users = s.users.update userId f)
    (hf : ∀ u ∈ s.users.get userId, Foreign caller u → f u = u) : ForeignKept caller s s' := by
  intro u hu hforeign
  rw [hs', Table.mem_update]
  refine ⟨u, hu, ?_⟩
  split
  next hid =>
    rw [hf u ((Table.get_eq_some _).mpr ⟨hu, hid⟩) hforeign]
    exact Keyed.stamp_key u
  next => rfl

theorem not_foreign_self {caller : User} (h : caller.role = .hotelAdmin) :
    ¬Foreign caller caller := by
  intro hforeign
  rcases hforeign with hr | ⟨g, hg, hne⟩
  · rw [h] at hr
    cases hr
  · exact hne hg

/-- An account that changes its own row and keeps its role stays confined. -/
theorem confined_update_own {c : Call} {caller : User} {s' : Store}
    (hcaller : c.caller s = some caller) (hid : caller ∈ s.users.rows)
    (hs' : s'.users = s.users.update caller.id f) (hf : ∀ u, (f u).role = u.role) :
    Confined s c s' := by
  refine ⟨noneRaised_update hs' fun u _ hr => ?_, fun caller' hc' hadmin => ?_⟩
  · rwa [hf] at hr
  · obtain rfl := Option.some.inj (hcaller.symm.trans hc')
    refine foreignKept_update hs' fun u hu hforeign => ?_
    obtain ⟨hmem, hkey⟩ := (Table.get_eq_some _).mp hu
    obtain rfl := s.users.eq_of_key hmem hid hkey
    exact absurd hforeign (not_foreign_self hadmin)

end

/-! ### Requests anyone may send -/

section

variable (ext : Ext) (env : Env) (s : Store)

theorem noneRaised_committed {α : Type} {s : Store} {x : Except Error (α × Store)}
    (hx : ∀ r, x = .ok r → NoneRaised s r.2) : NoneRaised s (committed s x) := by
  cases x with
  | error e => exact .refl s
  | ok r => exact hx r rfl

theorem registerVerified_noneRaised {email fullName : String} {photoUrl : Option String}
    {r : User × Store} (hr : registerVerified ext env s email fullName photoUrl = .ok r) :
    NoneRaised s r.2 := by
  simp only [registerVerified, createUser, bind_eq_ok, pure_eq_ok] at hr
  obtain ⟨_, _, rfl⟩ := hr
  exact noneRaised_insert (by simp [newUser])

theorem socialLogin_noneRaised (reply : Option ProviderUser) :
    NoneRaised s (committed s (socialLogin ext env s reply)) := by
  refine noneRaised_committed fun r hr => ?_
  simp only [socialLogin, bind_eq_ok] at hr
  obtain ⟨profile, _, _, _, hr⟩ := hr
  split at hr
  · rw [pure_eq_ok] at hr
    rw [← hr]
    exact .refl s
  · simp only [bind_eq_ok, pure_eq_ok] at hr
    obtain ⟨created, hc, rfl⟩ := hr
    exact registerVerified_noneRaised ext env s hc

theorem googleLogin_noneRaised (reply : Except String ProviderUser) :
    NoneRaised s (committed s (googleLogin ext env s reply)) := by
  refine noneRaised_committed fun r hr => ?_
  simp only [googleLogin, bind_eq_ok] at hr
  obtain ⟨profile, _, _, _, hr⟩ := hr
  split at hr
  · simp only [bind_eq_ok, pure_eq_ok] at hr
    obtain ⟨created, hc, rfl⟩ := hr
    exact registerVerified_noneRaised ext env s hc
  · split at hr
    · rw [pure_eq_ok] at hr
      rw [← hr]
      exact .refl s
    · split at hr
      · simp only [bind_eq_ok, pure_eq_ok] at hr
        obtain ⟨updated, hu, rfl⟩ := hr
        exact noneRaised_update (updateUser_store hu) fun u _ h => h
      · rw [pure_eq_ok] at hr
        rw [← hr]
        exact .refl s

theorem servePublic_noneRaised (r : PublicRequest) : NoneRaised s (servePublic ext env s r) := by
  have hframe : TableName.users ∉ r.writes → NoneRaised s (servePublic ext env s r) := fun hw =>
    noneRaised_of_users (servePublic_agree ext env s r .users hw)
  cases r with
  | register data =>
    refine noneRaised_committed fun r hr => ?_
    obtain ⟨_, rfl⟩ := registerUser_eq_ok.mp hr
    exact noneRaised_insert (by simp [registeredUser, newUser])
  | login email password => exact .refl s
  | socialLogin reply => exact socialLogin_noneRaised ext env s reply
  | googleLogin reply => exact googleLogin_noneRaised ext env s reply
  | verifyEmail secret =>
    refine noneRaised_committed fun r hr => ?_
    simp only [verifyEmail, bind_eq_ok, pure_eq_ok] at hr
    obtain ⟨record, _, rfl⟩ := hr
    exact noneRaised_update rfl fun u _ h => h
  | resendVerification email => exact hframe (by simp [PublicRequest.writes])
  | forgotPassword email => exact hframe (by simp [PublicRequest.writes])
  | resetPassword secret new =>
    refine noneRaised_committed fun r hr => ?_
    simp only [resetPassword, bind_eq_ok, pure_eq_ok] at hr
    obtain ⟨record, _, _, _, rfl⟩ := hr
    exact noneRaised_update rfl fun u _ h => h

end

/-! ### Requests about the own row -/

theorem confined_own {α : Type} {s : Store} {c : Call} {x : Except Error (α × Store)}
    (hpublic : c.caller s = c.token.bind s.users.get)
    (hx : ∀ r, x = .ok r → ∃ user f, getCurrentUser s c.token = .ok user ∧
      r.2.users = s.users.update user.id f ∧ ∀ u : User, (f u).role = u.role) :
    Confined s c (committed s x) := by
  cases hr : x with
  | error e => exact confined_of_users rfl
  | ok r =>
    obtain ⟨user, f, huser, hs', hf⟩ := hx r hr
    obtain ⟨id, htoken, hget⟩ := getCurrentUser_eq_ok.mp huser
    rw [htoken] at hpublic
    exact confined_update_own (hpublic.trans hget) ((Table.get_eq_some _).mp hget).1 hs' hf

theorem setPhoto_own {s : Store} {token : Bearer} {photoUrl : Option String} {r : User × Store}
    (hr : setPhoto s token photoUrl = .ok r) : ∃ user f, getCurrentUser s token = .ok user ∧
      r.2.users = s.users.update user.id f ∧ ∀ u : User, (f u).role = u.role := by
  simp only [setPhoto, bind_eq_ok, pure_eq_ok] at hr
  obtain ⟨user, huser, updated, hu, row, _, rfl⟩ := hr
  exact ⟨user, _, huser, updateUser_store hu, fun _ => rfl⟩

theorem serveGuest_confined (ext : Ext) (env : Env) (s : Store) (token : Bearer)
    (r : GuestRequest) : Confined s ⟨env, token, .guest r⟩ (serveGuest ext env s token r) := by
  by_cases hw : TableName.users ∈ r.writes
  · cases r with
    | updateProfile data =>
      refine confined_own rfl fun r hr => ?_
      simp only [updateProfile, bind_eq_ok, pure_eq_ok] at hr
      obtain ⟨user, huser, updated, hu, row, _, rfl⟩ := hr
      exact ⟨user, _, huser, updateUser_store hu, fun _ => rfl⟩
    | changePassword data =>
      refine confined_own rfl fun r hr => ?_
      simp only [changePassword, bind_eq_ok] at hr
      obtain ⟨user, huser, _, _, hu⟩ := hr
      exact ⟨user, _, huser, updateUser_store hu, fun _ => rfl⟩
    | _ => simp [GuestRequest.writes] at hw
  · exact confined_of_users (serveGuest_agree ext env s token r .users hw)

theorem servePhoto_confined (env : Env) (s : Store) (token : Bearer) (r : PhotoRequest) :
    Confined s ⟨env, token, .photo r⟩ (servePhoto s token r) := by
  cases r with
  | delete => exact confined_own rfl fun r hr => setPhoto_own hr
  | upload contentType size uploaded =>
    refine confined_own rfl fun r hr => ?_
    simp only [uploadPhoto, bind_eq_ok] at hr
    obtain ⟨_, _, _, _, _, _, _, _, hr⟩ := hr
    exact setPhoto_own hr

/-! ### Requests of the user administration -/

/-- If the change goes through, it leaves a foreign row as it is and makes no
super admin. -/
def EditWithin (s : Store) (caller : User) (userId : ℤ) (f : User → User) : Prop :=
  ∀ u ∈ s.users.get userId, userFits s (f u) →
    (Foreign caller u → f u = u) ∧ ((f u).role = .superAdmin → u.role = .superAdmin)

def UserRequest.Within (ext : Ext) (env : Env) (s : Store) (caller : User) : UserRequest → Prop
  | .add data => Role.ofString? data.role = some .superAdmin →
    ¬userFits s (addedUser ext env s caller data .superAdmin)
  | .edit userId data => ∀ role, parseRole data.role = .ok role →
    EditWithin s caller userId (data.apply ext role)
  | .remove userId => ∀ u ∈ s.users.get userId, Foreign caller u →
    userUnreferenced s userId = false
  | .ban userId body | .blacklist userId body => EditWithin s caller userId body.apply
  | .toggleVip userId => EditWithin s caller userId fun u => { u with vipStatus := !u.vipStatus }
  | .loyalty userId body => EditWithin s caller userId body.apply
  | .segment userId label => EditWithin s caller userId fun u => { u with segment := label }
  | .addNote _ _ | .deleteNote _ _ => True

section

variable {s : Store} {token : Bearer} {caller : User}

theorem requireAdmin_bind_refused {α : Type} {g : User → Except Error (α × Store)}
    (h : ∀ user ∈ token.bind s.users.get, user.role ≠ .hotelAdmin ∧ user.role ≠ .superAdmin) :
    committed s (getCurrentUser s token >>= fun user => requireAdmin user >>= fun _ => g user) =
      s := by
  refine committed_of_refused fun r hr => ?_
  simp only [bind_eq_ok, getCurrentUser_eq_ok] at hr
  obtain ⟨user, ⟨id, rfl, hget⟩, _, hadmin, _⟩ := hr
  obtain ⟨hne, hne'⟩ := h user hget
  rcases requireAdmin_eq_ok.mp hadmin with hrole | hrole
  · exact hne hrole
  · exact hne' hrole

theorem serveUser_refused (ext : Ext) (env : Env)
    (h : ∀ user ∈ token.bind s.users.get, user.role ≠ .hotelAdmin ∧ user.role ≠ .superAdmin)
    (r : UserRequest) : serveUser ext env s token r = s := by
  cases r with
  | add data => exact requireAdmin_bind_refused h
  | edit userId data => exact requireAdmin_bind_refused h
  | remove userId => exact requireAdmin_bind_refused h
  | ban userId body => exact requireAdmin_bind_refused h
  | toggleVip userId => exact requireAdmin_bind_refused h
  | loyalty userId body => exact requireAdmin_bind_refused h
  | addNote userId body => exact requireAdmin_bind_refused h
  | deleteNote userId noteId => exact requireAdmin_bind_refused h
  | segment userId label => exact requireAdmin_bind_refused h
  | blacklist userId body => exact requireAdmin_bind_refused h

variable (hcaller : getCurrentUser s token = .ok caller) (hadmin : caller.role = .hotelAdmin)

include hcaller hadmin

theorem adminEdit_kept_iff {userId : ℤ} {missing : Error} {f : User → User}
    (hid : ∀ u, (f u).id = u.id) :
    (NoneRaised s (committed s (adminEdit s token userId missing f)) ∧
      ForeignKept caller s (committed s (adminEdit s token userId missing f))) ↔
      EditWithin s caller userId f := by
  have hrole : requireAdmin caller = .ok () := requireAdmin_eq_ok.mpr (Or.inl hadmin)
  unfold adminEdit updateUser
  simp only [hcaller, hrole, bind, Except.bind]
  cases hget : s.users.get userId with
  | none =>
    refine iff_of_true ⟨.refl s, .refl caller s⟩ fun u hu => ?_
    rw [hget] at hu
    cases hu
  | some u =>
    have hmem := (Table.get_eq_some _).mp hget
    by_cases hfits : userFits s (f u)
    · simp only [ensure, hfits, if_true, pure, Except.pure, found, committed]
      have hnew : f u ∈ (s.users.update userId f).rows :=
        (Table.mem_update_of_get _ hget).mpr (Or.inl (stamp_eq_self (hid u)).symm)
      constructor
      · intro h x hx _
        obtain rfl := Option.some.inj (hget.symm.trans hx)
        refine ⟨fun hforeign => ?_, fun hr => ?_⟩
        · have hkept := h.2 u hmem.1 hforeign
          exact Table.eq_of_key _ hnew hkept (hid u)
        · obtain ⟨v, hv, hvid, hvr⟩ := h.1 (f u) hnew hr
          rwa [s.users.eq_of_key hv hmem.1 (hvid.trans (hid u))] at hvr
      · intro h
        refine ⟨noneRaised_update rfl fun x hx => ?_, foreignKept_update rfl fun x hx => ?_⟩
        · obtain rfl := Option.some.inj (hget.symm.trans hx)
          exact (h u hget hfits).2
        · obtain rfl := Option.some.inj (hget.symm.trans hx)
          exact (h u hget hfits).1
    · simp only [ensure, hfits, if_false, committed]
      refine iff_of_true ⟨.refl s, .refl caller s⟩ fun x hx hfits' => ?_
      obtain rfl := Option.some.inj (hget.symm.trans hx)
      exact absurd hfits' hfits

theorem addUser_kept_iff (ext : Ext) (env : Env) (data : UserAdminCreate) :
    (NoneRaised s (committed s (addUser ext env s token data)) ∧
      ForeignKept caller s (committed s (addUser ext env s token data))) ↔
      (UserRequest.add data).Within ext env s caller := by
  have hrole : requireAdmin caller = .ok () := requireAdmin_eq_ok.mpr (Or.inl hadmin)
  unfold addUser createUser UserRequest.Within
  simp only [hcaller, hrole, bind, Except.bind]
  cases hlabel : Role.ofString? data.role with
  | none =>
    refine iff_of_true ⟨.refl s, .refl caller s⟩ fun hsuper => ?_
    cases hsuper
  | some role =>
    by_cases hfits : userFits s (addedUser ext env s caller data role)
    · have hfits' := hfits
      unfold addedUser at hfits'
      simp only [found, ensure, hfits', if_true, pure, Except.pure, committed]
      constructor
      · intro h hsuper
        obtain rfl := Option.some.inj hsuper
        obtain ⟨u, hu, hid, _⟩ := h.1 _ ((Table.mem_insert _).mpr (Or.inr rfl)) rfl
        exact absurd hid (s.users.key_ne_next hu)
      · intro h
        refine ⟨noneRaised_insert fun hsuper => ?_, fun u hu _ => ?_⟩
        · have hsuper : role = .superAdmin := hsuper
          rw [hsuper] at hfits
          exact h (congrArg some hsuper) hfits
        · exact (Table.mem_insert _).mpr (Or.inl hu)
    · have hfits' := hfits
      unfold addedUser at hfits'
      simp only [found, ensure, hfits', if_false, committed]
      refine iff_of_true ⟨.refl s, .refl caller s⟩ fun hsuper => ?_
      rwa [← Option.some.inj hsuper]

theorem editUser_kept_iff (ext : Ext) (userId : ℤ) (data : UserAdminUpdate) :
    (NoneRaised s (committed s (editUser ext s token userId data)) ∧
      ForeignKept caller s (committed s (editUser ext s token userId data))) ↔
      ∀ role, parseRole data.role = .ok role →
        EditWithin s caller userId (data.apply ext role) := by
  have hrole : requireAdmin caller = .ok () := requireAdmin_eq_ok.mpr (Or.inl hadmin)
  cases hget : s.users.get userId with
  | none =>
    have hstay : committed s (editUser ext s token userId data) = s := by
      simp only [editUser, hcaller, hrole, hget, bind, Except.bind, found, committed]
    rw [hstay]
    refine iff_of_true ⟨.refl s, .refl caller s⟩ fun role _ u hu => ?_
    rw [hget] at hu
    cases hu
  | some u =>
    cases hparse : parseRole data.role with
    | error e =>
      have hstay : committed s (editUser ext s token userId data) = s := by
        simp only [editUser, hcaller, hrole, hget, hparse, bind, Except.bind, found, committed]
      rw [hstay]
      refine iff_of_true ⟨.refl s, .refl caller s⟩ fun role hrole => ?_
      cases hrole
    | ok role =>
      have hedit : editUser ext s token userId data =
          adminEdit s token userId userNotFound (data.apply ext role) := by
        simp only [editUser, hcaller, hrole, hget, hparse, bind, Except.bind, found]
      rw [hedit, adminEdit_kept_iff (f := data.apply ext role) hcaller hadmin fun _ => rfl]
      exact ⟨fun h role' heq => Except.ok.inj heq ▸ h, fun h => h role rfl⟩

theorem removeUser_users {userId : ℤ} {u : User} (hget : s.users.get userId = some u)
    (hfree : userUnreferenced s userId = true) :
    (committed s (removeUser s token userId)).users = s.users.delete userId := by
  have hrole : requireAdmin caller = .ok () := requireAdmin_eq_ok.mpr (Or.inl hadmin)
  have hid : u.id = userId := ((Table.get_eq_some _).mp hget).2
  rw [← hid] at hfree ⊢
  rw [← hid] at hget
  simp only [removeUser, hcaller, hrole, hget, hfree, bind, Except.bind, found, ensure, if_true,
    pure, Except.pure, committed]

omit hcaller hadmin in
theorem removeUser_refused {userId : ℤ} (h : ∀ u ∈ s.users.get userId,
    userUnreferenced s userId = false) : committed s (removeUser s token userId) = s := by
  refine committed_of_refused fun r hr => ?_
  simp only [removeUser, bind_eq_ok, found_eq_ok, ensure_eq_ok] at hr
  obtain ⟨_, _, _, _, u, hget, _, hfree, _⟩ := hr
  have hid : u.id = userId := ((Table.get_eq_some _).mp hget).2
  rw [hid, h u hget] at hfree
  cases hfree

theorem removeUser_kept_iff (userId : ℤ) :
    (NoneRaised s (committed s (removeUser s token userId)) ∧
      ForeignKept caller s (committed s (removeUser s token userId))) ↔
      ∀ u ∈ s.users.get userId, Foreign caller u → userUnreferenced s userId = false := by
  by_cases hgoes : ∃ u, s.users.get userId = some u ∧ userUnreferenced s userId = true
  · obtain ⟨u, hget, hfree⟩ := hgoes
    obtain ⟨hmem, hid⟩ := (Table.get_eq_some _).mp hget
    unfold NoneRaised ForeignKept
    rw [removeUser_users hcaller hadmin hget hfree]
    constructor
    · intro h x hx hforeign
      obtain rfl := Option.some.inj (hget.symm.trans hx)
      have hno := ((Table.mem_deleteWhere _).mp (h.2 u hmem hforeign)).2
      simp [hid] at hno
    · intro h
      refine ⟨fun x hx hr => ⟨x, ((Table.mem_deleteWhere _).mp hx).1, rfl, hr⟩,
        fun x hx hforeign => (Table.mem_deleteWhere _).mpr ⟨hx, decide_eq_false fun hxid => ?_⟩⟩
      obtain rfl := s.users.eq_of_key hx hmem (hxid.trans hid.symm)
      rw [h x hget hforeign] at hfree
      cases hfree
  · have hrefused : ∀ u ∈ s.users.get userId, userUnreferenced s userId = false := by
      intro u hu
      rw [← Bool.not_eq_true]
      exact fun hfree => hgoes ⟨u, hu, hfree⟩
    rw [removeUser_refused hrefused]
    exact iff_of_true ⟨.refl s, .refl caller s⟩ fun u hu _ => hrefused u hu

omit hcaller hadmin in
theorem kept_of_agree {ts : List TableName} {s' : Store} (ha : Agree ts s s')
    (hts : TableName.users ∉ ts) : NoneRaised s s' ∧ ForeignKept caller s s' :=
  ⟨noneRaised_of_users (ha .users hts), foreignKept_of_users caller (ha .users hts)⟩

theorem serveUser_kept_iff (ext : Ext) (env : Env) (r : UserRequest) :
    (NoneRaised s (serveUser ext env s token r) ∧
      ForeignKept caller s (serveUser ext env s token r)) ↔ r.Within ext env s caller := by
  cases r with
  | add data => exact addUser_kept_iff hcaller hadmin ext env data
  | edit userId data => exact editUser_kept_iff hcaller hadmin ext userId data
  | remove userId => exact removeUser_kept_iff hcaller hadmin userId
  | ban userId body =>
    exact adminEdit_kept_iff (f := body.apply) hcaller hadmin fun _ => rfl
  | toggleVip userId =>
    exact adminEdit_kept_iff (f := fun u => { u with vipStatus := !u.vipStatus }) hcaller hadmin
      fun _ => rfl
  | loyalty userId body =>
    exact adminEdit_kept_iff (f := body.apply) hcaller hadmin fun _ => rfl
  | addNote userId body =>
    exact iff_of_true (kept_of_agree addGuestNote_writes.committed (by decide)) trivial
  | deleteNote userId noteId =>
    exact iff_of_true (kept_of_agree deleteGuestNote_writes.committed (by decide)) trivial
  | segment userId label =>
    exact adminEdit_kept_iff (f := fun u => { u with segment := label }) hcaller hadmin
      fun _ => rfl
  | blacklist userId body =>
    exact adminEdit_kept_iff (f := body.apply) hcaller hadmin fun _ => rfl

end

/-! ### Whole runs -/

/-- A hotel admin's request to the user administration stays within bounds. -/
def WithinReach (ext : Ext) (s : Store) (c : Call) : Prop :=
  match c.request with
  | .user r => ∀ caller ∈ c.token.bind s.users.get, caller.role = .hotelAdmin →
    r.Within ext c.env s caller
  | _ => True

theorem serveUser_confined_iff (ext : Ext) (s : Store) (env : Env) (token : Bearer)
    (r : UserRequest) (h : NotSuperAdmin s ⟨env, token, .user r⟩) :
    Confined s ⟨env, token, .user r⟩ (serveUser ext env s token r) ↔
      WithinReach ext s ⟨env, token, .user r⟩ := by
  by_cases hadmin : ∃ caller ∈ token.bind s.users.get, caller.role = .hotelAdmin
  · obtain ⟨caller, hcaller, hrole⟩ := hadmin
    obtain ⟨id, htoken, hget⟩ := Option.bind_eq_some_iff.mp hcaller
    have huser : getCurrentUser s token = .ok caller := getCurrentUser_eq_ok.mpr ⟨id, htoken, hget⟩
    have hiff := serveUser_kept_iff huser hrole ext env r
    constructor
    · intro hc x hx _
      obtain rfl := Option.some.inj (hcaller.symm.trans hx)
      exact hiff.mp ⟨hc.1, hc.2 caller hcaller hrole⟩
    · intro hw
      have hkept := hiff.mpr (hw caller hcaller hrole)
      refine ⟨hkept.1, fun x hx _ => ?_⟩
      obtain rfl := Option.some.inj (hcaller.symm.trans hx)
      exact hkept.2
  · have hrefused : ∀ user ∈ token.bind s.users.get,
        user.role ≠ .hotelAdmin ∧ user.role ≠ .superAdmin := fun user hu =>
      ⟨fun hrole => hadmin ⟨user, hu, hrole⟩, h user hu⟩
    rw [serveUser_refused ext env hrefused]
    refine iff_of_true (confined_of_users rfl) fun caller hc hrole => ?_
    exact absurd ⟨caller, hc, hrole⟩ hadmin

theorem handle_confined_iff (ext : Ext) (s : Store) (c : Call) (h : NotSuperAdmin s c) :
    Confined s c (handle ext s c) ↔ WithinReach ext s c := by
  obtain ⟨env, token, request⟩ := c
  have hframe : TableName.users ∉ request.writes →
      Confined s ⟨env, token, request⟩ (serve ext env s token request) := fun hw =>
    confined_of_users (serve_agree ext env s token request .users hw)
  cases request with
  | auth r =>
    refine iff_of_true ⟨servePublic_noneRaised ext env s r, fun caller hc => ?_⟩ trivial
    have hnobody : Call.caller s ⟨env, token, .auth r⟩ = none := rfl
    rw [hnobody] at hc
    cases hc
  | guest r => exact iff_of_true (serveGuest_confined ext env s token r) trivial
  | photo r => exact iff_of_true (servePhoto_confined env s token r) trivial
  | user r => exact serveUser_confined_iff ext s env token r h
  | desk r =>
    exact iff_of_true (hframe (by cases r <;> simp [Request.writes, DeskRequest.writes])) trivial
  | hotel r =>
    exact iff_of_true (hframe (by cases r <;> simp [Request.writes, HotelRequest.writes])) trivial
  | _ => exact iff_of_true (hframe (by simp [Request.writes])) trivial

/-- In a run without super admins nobody becomes one, and no hotel admin touches
a foreign row, exactly when every request of a hotel admin stays within bounds. -/
theorem no_escalation_iff (ext : Ext) (s : Store) (cs : List Call)
    (h : Along (handle ext) NotSuperAdmin s cs) :
    Always (handle ext) (NoneRaised s) s cs ∧
        Along (handle ext) (fun t c => Confined t c (handle ext t c)) s cs ↔
      Along (handle ext) (WithinReach ext) s cs := by
  constructor
  · intro hc
    exact (along_and.mpr ⟨h, hc.2⟩).mono fun t c ht => (handle_confined_iff ext t c ht.1).mp ht.2
  · intro hw
    have hconfined := (along_and.mpr ⟨h, hw⟩).mono fun t c ht =>
      (handle_confined_iff ext t c ht.1).mpr ht.2
    exact ⟨always_of_along (fun t c ht hc => ht.trans hc.1) (.refl s) hconfined, hconfined⟩

def housekeeping : List Call :=
  [⟨sampleEnv "", some 3, .user (.edit 1
      ⟨some "Ann", none, none, none, none, none, none, none, none⟩)⟩,
    ⟨sampleEnv "", some 3, .user (.ban 2 ⟨true, none⟩)⟩]

theorem no_escalation_iff_housekeeping :
    Always (handle sampleExt) (NoneRaised sampleStore) sampleStore housekeeping ∧
        Along (handle sampleExt) (fun t c => Confined t c (handle sampleExt t c)) sampleStore
          housekeeping ↔
      Along (handle sampleExt) (WithinReach sampleExt) sampleStore housekeeping :=
  no_escalation_iff sampleExt sampleStore housekeeping (by decide +kernel)

def takesOver : List Call :=
  [⟨sampleEnv "", some 3, .user (.add ⟨"Boss", "d@x.org", "secret", "super_admin", none, none,
      none⟩)⟩,
    ⟨sampleEnv "", some 3, .user (.ban 4 ⟨true, none⟩)⟩]

theorem hotel_admin_escalates :
    Along (handle sampleExt) NotSuperAdmin sampleStore takesOver ∧
      ¬NoneRaised sampleStore (run (handle sampleExt) sampleStore (takesOver.take 1)) ∧
      ∃ caller ∈ sampleStore.users.get 3, caller.role = .hotelAdmin ∧
        ¬ForeignKept caller (run (handle sampleExt) sampleStore (takesOver.take 1))
          (run (handle sampleExt) sampleStore takesOver) := by
  decide +kernel

end HotelMs
