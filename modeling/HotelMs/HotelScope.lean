import HotelMs.Frame
import HotelMs.Lib.Runs

/-!
# The hotel a caller acts for

`get_current_hotel` reads `users.hotel_id`, and `register_user` copies that
column from the registration body. An attacker registers accounts, logs in and
sends room and pricing requests with the tokens it got.
-/

namespace HotelMs

open Tables Runs

/-- The attacker keeps the user ids of the tokens its logins returned. -/
structure Attack where
  store : Store
  tokens : List ℤ

inductive AttackEvent
  | register (env : Env) (data : RegisterRequest)
  | login (email password : String)
  | room (i : ℕ) (r : RoomRequest)
  | pricing (env : Env) (i : ℕ) (r : PricingRequest)

def attackStep (ext : Ext) (a : Attack) : AttackEvent → Attack
  | .register env data => { a with store := committed a.store (registerUser ext env a.store data) }
  | .login email password =>
    match loginEndpoint ext a.store email password with
    | .ok payload => { a with tokens := payload.userId :: a.tokens }
    | .error _ => a
  | .room i r => { a with store := serveRoom a.store a.tokens[i]? r }
  | .pricing env i r => { a with store := servePricing env a.store a.tokens[i]? r }

/-- The hotel a new account acts for is the one its body named. -/
theorem callerHotel_registered {ext : Ext} {env : Env} {s : Store} {data : RegisterRequest}
    {r : User × Store} (h : registerUser ext env s data = .ok r) :
    callerHotel r.2 (some r.1.id) =
      found data.hotelId (.http 403 "User is not assigned to a hotel") := by
  obtain ⟨_, rfl⟩ := registerUser_eq_ok.mp h
  have hget : (s.users.insert (registeredUser ext env s data)).get s.users.next =
      some (registeredUser ext env s data) := Table.get_insert_next _
  show (found ((s.users.insert (registeredUser ext env s data)).get s.users.next)
    credentialsExc >>= getCurrentHotel) = _
  rw [hget]
  rfl

/-! ### Callers without a hotel -/

theorem callerHotel_bind_refused {α : Type} {s : Store} {token : Bearer}
    {f : ℤ → Except Error (α × Store)}
    (h : ∀ user ∈ token.bind s.users.get, user.hotelId = none) :
    committed s (callerHotel s token >>= f) = s := by
  refine committed_of_refused fun r hr => ?_
  obtain ⟨hotelId, hok, _⟩ := bind_eq_ok.mp hr
  simp only [callerHotel, bind_eq_ok, getCurrentUser_eq_ok, getCurrentHotel_eq_ok] at hok
  obtain ⟨user, ⟨id, rfl, hget⟩, hhotel⟩ := hok
  rw [h user hget] at hhotel
  cases hhotel

theorem serveRoom_refused {s : Store} {token : Bearer}
    (h : ∀ user ∈ token.bind s.users.get, user.hotelId = none) (r : RoomRequest) :
    serveRoom s token r = s := by
  cases r with
  | create data => exact callerHotel_bind_refused h
  | update roomId data => exact callerHotel_bind_refused h
  | delete roomId => exact callerHotel_bind_refused h

theorem servePricing_refused {s : Store} {token : Bearer}
    (h : ∀ user ∈ token.bind s.users.get, user.hotelId = none) (env : Env) (r : PricingRequest) :
    servePricing env s token r = s := by
  cases r with
  | create data => exact callerHotel_bind_refused h
  | delete ruleId => exact callerHotel_bind_refused h

/-! ### Runs -/

/-- The attacker knows no password of an account that has a role or a hotel. -/
def HoldsNoCredentials (ext : Ext) (s : Store) : AttackEvent → Prop
  | .login email password => ∀ u ∈ s.users.rows, u.email = normalEmail ext email →
    ext.checkpw password u.hashedPassword = true → u.role = .guest ∧ u.hotelId = none
  | _ => True

instance (ext : Ext) (s : Store) : ∀ e, Decidable (HoldsNoCredentials ext s e)
  | .login email password =>
    inferInstanceAs (Decidable (∀ u ∈ s.users.rows, u.email = normalEmail ext email →
      ext.checkpw password u.hashedPassword = true → u.role = .guest ∧ u.hotelId = none))
  | .register _ _ | .room _ _ | .pricing _ _ _ => instDecidableTrue

/-- A registration that goes through names no hotel. -/
def NamesNoHotel (ext : Ext) (a : Attack) : AttackEvent → Prop
  | .register env data => userFits a.store (registeredUser ext env a.store data) →
    data.hotelId = none
  | _ => True

instance (ext : Ext) (a : Attack) : ∀ e, Decidable (NamesNoHotel ext a e)
  | .register env data =>
    inferInstanceAs (Decidable (userFits a.store (registeredUser ext env a.store data) →
      data.hotelId = none))
  | .login _ _ | .room _ _ | .pricing _ _ _ => instDecidableTrue

/-- New accounts have no hotel, the accounts of the tokens have none, and the
rooms and pricing rules are those of `s`. -/
structure OutOfScope (s : Store) (a : Attack) : Prop where
  accounts : ∀ u ∈ a.store.users.rows, u ∈ s.users.rows ∨ u.hotelId = none
  tokens : ∀ id ∈ a.tokens, ∀ u ∈ a.store.users.rows, u.id = id → u.hotelId = none
  rooms : a.store.rooms = s.rooms
  pricingRules : a.store.pricingRules = s.pricingRules

theorem OutOfScope.start (s : Store) : OutOfScope s ⟨s, []⟩ where
  accounts := fun _ hu => Or.inl hu
  tokens := fun id hid => by cases hid
  rooms := rfl
  pricingRules := rfl

theorem OutOfScope.held {s : Store} {a : Attack} (h : OutOfScope s a) (i : ℕ) :
    ∀ user ∈ (a.tokens[i]? : Bearer).bind a.store.users.get, user.hotelId = none := by
  intro user huser
  obtain ⟨id, hid, hget⟩ := Option.bind_eq_some_iff.mp huser
  obtain ⟨hmem, hkey⟩ := (Table.get_eq_some _).mp hget
  exact h.tokens id (List.mem_of_getElem? hid) user hmem hkey

theorem OutOfScope.register {ext : Ext} {s : Store} {a : Attack} {env : Env}
    {data : RegisterRequest} (h : OutOfScope s a)
    (hnone : NamesNoHotel ext a (.register env data)) :
    OutOfScope s (attackStep ext a (.register env data)) := by
  cases hr : registerUser ext env a.store data with
  | error e =>
    have hstay : attackStep ext a (.register env data) = a := by
      simp only [attackStep, hr, committed]
    rw [hstay]
    exact h
  | ok r =>
    obtain ⟨hfits, rfl⟩ := registerUser_eq_ok.mp hr
    have hhotel : (registeredUser ext env a.store data).hotelId = none := hnone hfits
    have hrows : ∀ u ∈ (a.store.users.insert (registeredUser ext env a.store data)).rows,
        u ∈ a.store.users.rows ∨ u.hotelId = none := by
      intro u hu
      rcases (Table.mem_insert _).mp hu with hold | rfl
      · exact Or.inl hold
      · exact Or.inr hhotel
    simp only [attackStep, hr, committed]
    refine ⟨fun u hu => ?_, fun id hid u hu hkey => ?_, h.rooms, h.pricingRules⟩
    · rcases hrows u hu with hold | hnew
      · exact h.accounts u hold
      · exact Or.inr hnew
    · rcases hrows u hu with hold | hnew
      · exact h.tokens id hid u hold hkey
      · exact hnew

theorem OutOfScope.login {ext : Ext} {s : Store} {a : Attack} {email password : String}
    (h : OutOfScope s a) (hcred : HoldsNoCredentials ext s (.login email password)) :
    OutOfScope s (attackStep ext a (.login email password)) := by
  cases hl : loginEndpoint ext a.store email password with
  | error e =>
    have hstay : attackStep ext a (.login email password) = a := by
      simp only [attackStep, hl]
    rw [hstay]
    exact h
  | ok payload =>
    simp only [loginEndpoint, bind_eq_ok, found_eq_ok, pure_eq_ok] at hl
    obtain ⟨user, hauth, rfl⟩ := id hl
    obtain ⟨hmem, hemail, hpw⟩ := authenticateUser_eq_some hauth
    have hhotel : user.hotelId = none := by
      rcases h.accounts user hmem with hold | hnone
      · exact (hcred user hold hemail hpw).2
      · exact hnone
    have hstep : attackStep ext a (.login email password) =
        { a with tokens := user.id :: a.tokens } := by
      simp only [attackStep, loginEndpoint, hauth]
      rfl
    rw [hstep]
    refine { h with tokens := fun id hid u hu hkey => ?_ }
    rcases List.mem_cons.mp hid with rfl | hid
    · rwa [a.store.users.eq_of_key hu hmem hkey]
    · exact h.tokens id hid u hu hkey

theorem OutOfScope.step {ext : Ext} {s : Store} {a : Attack} {e : AttackEvent}
    (h : OutOfScope s a) (hcred : HoldsNoCredentials ext s e) (hnone : NamesNoHotel ext a e) :
    OutOfScope s (attackStep ext a e) := by
  cases e with
  | register env data => exact h.register hnone
  | login email password => exact h.login hcred
  | room i r =>
    have hstay : attackStep ext a (.room i r) = a := by
      simp only [attackStep, serveRoom_refused (h.held i)]
    rw [hstay]
    exact h
  | pricing env i r =>
    have hstay : attackStep ext a (.pricing env i r) = a := by
      simp only [attackStep, servePricing_refused (h.held i)]
    rw [hstay]
    exact h

/-- As long as no registration that goes through names a hotel, no token the
attacker gets changes a room or a pricing rule. -/
theorem scope_not_self_asserted (ext : Ext) (s : Store) (es : List AttackEvent)
    (hcred : ∀ e ∈ es, HoldsNoCredentials ext s e)
    (h : Along (attackStep ext) (NamesNoHotel ext) ⟨s, []⟩ es) :
    Always (attackStep ext) (fun a => a.store.rooms = s.rooms ∧
      a.store.pricingRules = s.pricingRules) ⟨s, []⟩ es := by
  have hboth := along_and.mpr ⟨along_of_forall fun _ => hcred, h⟩
  have hscope := always_of_along (I := OutOfScope s)
    (fun a e ha he => ha.step he.1 he.2) (OutOfScope.start s) hboth
  exact hscope.mono fun a ha => ⟨ha.rooms, ha.pricingRules⟩

def mallory (hotelId : Option ℤ) : RegisterRequest where
  fullName := "Mallory"
  email := "m@x.org"
  password := "SecureP@ss1"
  hotelId := hotelId
  full_name_not_empty := by decide
  password_strength := by decide

def takeover (hotelId : Option ℤ) : List AttackEvent :=
  [.register (sampleEnv "") (mallory hotelId), .login "m@x.org" "SecureP@ss1",
    .room 0 (.create ⟨1, 1, none, none, none, none, true⟩)]

theorem scope_not_self_asserted_unscoped :
    Always (attackStep sampleExt) (fun a => a.store.rooms = sampleStore.rooms ∧
      a.store.pricingRules = sampleStore.pricingRules) ⟨sampleStore, []⟩ (takeover none) :=
  scope_not_self_asserted sampleExt sampleStore (takeover none) (by decide +kernel)
    (by decide +kernel)

theorem registration_takes_hotel :
    (∀ e ∈ takeover (some 1), HoldsNoCredentials sampleExt sampleStore e) ∧
      (run (attackStep sampleExt) ⟨sampleStore, []⟩ (takeover (some 1))).store.rooms.rows ≠
        sampleStore.rooms.rows := by
  decide +kernel

end HotelMs
