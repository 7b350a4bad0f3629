import HotelMs.Sessions
import HotelMs.UserWrites

/-!
# What a ban keeps out

`is_banned` is set by two admin endpoints. A ban would have to be looked at in
six places: the log-in, the two sign-ins through a provider and the refresh,
which issue tokens, and `get_current_user` and the websocket, which accept them.
-/

namespace HotelMs

open Tables Runs ExpiringKeys

/-- The claims of a token that a log-in, a sign-in or a refresh made for the user. -/
inductive Issued (settings : TokenSettings) (userId : ℤ) : Claims → Prop
  | access (data : TokenPayload) (jti : ℕ) (issuedAt : ℚ) (hid : data.userId = userId) :
      Issued settings userId (accessClaims settings data jti issuedAt)
  | refresh (data : TokenPayload) (jti : ℕ) (issuedAt : ℚ) (hid : data.userId = userId) :
      Issued settings userId (refreshClaims settings data jti issuedAt)

section

variable {τ : Type} (jose : Jose τ) (settings : TokenSettings) (ext : Ext)

/-- No entry issues the user a token or accepts one. -/
structure Barred (w : AuthWorld) (now : ℚ) (userId : ℤ) : Prop where
  login : ∀ email password data, loginEndpoint ext w.store email password = .ok data →
    data.userId ≠ userId
  social : ∀ env reply a, socialLogin ext env w.store reply = .ok a → a.1.userId ≠ userId
  google : ∀ env reply a, googleLogin ext env w.store reply = .ok a → a.1.userId ≠ userId
  refresh : ∀ claims, Issued settings userId claims → ∀ jtis pair,
    refreshEndpoint jose settings w now jtis (jose.encode claims) ≠ .ok pair
  access : ∀ claims, Issued settings userId claims → ∀ user,
    currentUser jose w now (some (jose.encode claims)) ≠ .ok user
  websocket : ∀ claims, Issued settings userId claims → ∀ pathId,
    websocketEndpoint jose w now pathId (some (jose.encode claims)) ≠ .ok ()

def BansEnforced (w : AuthWorld) : Prop :=
  ∀ u ∈ w.store.users.rows, u.isBanned = true → ∀ now, Barred jose settings ext w now u.id

def NoneBanned (s : Store) : Prop := ∀ u ∈ s.users.rows, u.isBanned = false

/-- The event is not a ban that goes through. -/
def BansNobody (w : AuthWorld) (e : AuthEvent τ) : Prop :=
  match e.request with
  | .serve _ token (.user (.ban userId body)) | .serve _ token (.user (.blacklist userId body)) =>
    body.ban = true → ∀ u, ¬Manages w.store (bearerOf jose w e.now token) userId body.apply u
  | _ => True

end

/-! ### Who is banned after a request -/

section

variable {ext : Ext} {env : Env} {s : Store} {token : Bearer}

theorem UserRequest.change_banned {r : UserRequest} {k : ℤ} {f : User → User}
    (hban : ∀ userId body, r ≠ .ban userId body)
    (hblacklist : ∀ userId body, r ≠ .blacklist userId body)
    (h : r.change = some (k, f)) (u : User) : (f u).isBanned = u.isBanned := by
  cases r with
  | ban userId body => exact absurd rfl (hban userId body)
  | blacklist userId body => exact absurd rfl (hblacklist userId body)
  | toggleVip userId =>
    obtain ⟨_, rfl⟩ := Prod.mk.inj (Option.some.inj h)
    rfl
  | loyalty userId body =>
    obtain ⟨_, rfl⟩ := Prod.mk.inj (Option.some.inj h)
    rfl
  | segment userId label =>
    obtain ⟨_, rfl⟩ := Prod.mk.inj (Option.some.inj h)
    rfl
  | _ => cases h

theorem Adds.banned {r : Request} {u : User} (h : Adds ext env s token r u) :
    u.isBanned = false := by
  cases h <;> rfl

theorem noneBanned_update {k : ℤ} {f : User → User}
    (hf : ∀ u ∈ s.users.rows, (f u).isBanned = false) (h : NoneBanned s) :
    NoneBanned { s with users := s.users.update k f } := by
  intro u hu
  obtain ⟨v, hv, rfl⟩ := (Table.mem_update _).mp hu
  split
  · exact hf v hv
  · exact h v hv

theorem UserWrite.noneBanned {r : Request} {users : Table User}
    (hwrite : UserWrite ext env s token r users)
    (hban : ∀ userId body, r ≠ .user (.ban userId body))
    (hblacklist : ∀ userId body, r ≠ .user (.blacklist userId body)) (h : NoneBanned s) :
    NoneBanned { s with users } := by
  cases hwrite with
  | same => exact h
  | added u hadds hfits =>
    intro v hv
    rcases (Table.mem_insert _).mp hv with hold | rfl
    · exact h v hold
    · exact hadds.banned
  | changed k f hchanges =>
    refine noneBanned_update (fun u hu => ?_) h
    cases hchanges with
    | managed r userId f v hchange hmanages =>
      rw [UserRequest.change_banned (fun k b hr => hban k b (congrArg Request.user hr))
        (fun k b hr => hblacklist k b (congrArg Request.user hr)) hchange]
      exact h u hu
    | _ => exact h u hu
  | removed userId k hr => exact fun u hu => h u ((Table.mem_deleteWhere _).mp hu).1

/-- A ban that goes through, and nothing else, leaves somebody banned. -/
theorem noneBanned_ban_iff (h : NoneBanned s) (userId : ℤ) (missing : Error) (body : BanRequest) :
    NoneBanned (committed s (adminEdit s token userId missing body.apply)) ↔
      (body.ban = true → ∀ u, ¬Manages s token userId body.apply u) := by
  cases hx : adminEdit s token userId missing body.apply with
  | error e =>
    refine iff_of_true h fun _ u hmanages => ?_
    rw [adminEdit_eq_ok.mpr ⟨u, hmanages, rfl⟩] at hx
    cases hx
  | ok a =>
    obtain ⟨u, hmanages, rfl⟩ := adminEdit_eq_ok.mp hx
    cases hban : body.ban with
    | false =>
      refine iff_of_true (noneBanned_update (fun _ _ => hban) h) fun hfalse => ?_
      cases hfalse
    | true =>
      refine iff_of_false (fun hnone => ?_) fun hno => hno rfl u hmanages
      have hrow := (Table.get_eq_some _).mp (get_update_of_get (f := body.apply) rfl
        hmanages.target)
      have hfree : (body.apply u).isBanned = false := hnone _ hrow.1
      exact absurd (hban.symm.trans hfree) (by decide)

end

section

variable {τ : Type} {jose : Jose τ} {settings : TokenSettings} {ext : Ext}

theorem noneBanned_step_iff (w : AuthWorld) (e : AuthEvent τ) (h : NoneBanned w.store) :
    NoneBanned (w.step jose ext e).store ↔ BansNobody jose w e := by
  obtain ⟨now, request⟩ := e
  unfold BansNobody
  split
  next env token userId body hr =>
    cases hr
    exact noneBanned_ban_iff h userId userNotFound body
  next env token userId body hr =>
    cases hr
    exact noneBanned_ban_iff h userId guestNotFound body
  next hban hblacklist =>
    refine iff_of_true ?_ trivial
    cases request with
    | serve env token r =>
      have hwrite := handle_userWrite ext w.store ⟨env, bearerOf jose w now token, r⟩
      have hrest := hwrite.noneBanned
        (fun k b hr => hban env token k b (congrArg (AuthRequest.serve env token) hr))
        (fun k b hr => hblacklist env token k b (congrArg (AuthRequest.serve env token) hr)) h
      exact hrest
    | payment env c =>
      have husers : (processPayment env w.store c).2.users = w.store.users :=
        processPayment_agree .users (by decide)
      intro u hu
      exact h u (husers ▸ hu)
    | websocket userId token => exact h
    | refresh refreshToken => exact h
    | logout token refreshToken => exact h

/-! ### A ban is looked at nowhere -/

/-- When the key of a `jti` is not in the way, a token issued on the spot is
accepted for every account that exists. -/
theorem access_accepted (jose : Jose τ) (hlife : 0 ≤ settings.accessTokenExpireMinutes)
    {w : AuthWorld} {now : ℚ} {u : User} (hu : u ∈ w.store.users.rows) {jti : ℕ}
    (hjti : isBlacklisted w.blacklist now jti = false) :
    currentUser jose w now
      (some (jose.encode (accessClaims settings (tokenPayload u) jti now))) = .ok u := by
  have hexp : ⌊now⌋ ≤ (accessClaims settings (tokenPayload u) jti now).exp := by
    refine Int.floor_le_floor ?_
    have hlife' : (0 : ℚ) ≤ ((settings.accessTokenExpireMinutes * 60 : ℤ) : ℚ) := by
      exact_mod_cast mul_nonneg hlife (by decide)
    linarith
  have hdecode := (jose.decode_encode ⌊now⌋
    (accessClaims settings (tokenPayload u) jti now)).trans (if_pos hexp)
  have hbearer : bearerOf jose w now
      (some (jose.encode (accessClaims settings (tokenPayload u) jti now))) = some u.id := by
    simp only [bearerOf, hdecode, Option.bind_eq_bind, Option.bind_some]
    rw [if_neg (by simp [accessClaims, buildToken]),
      if_neg (by simp [accessClaims, buildToken, hjti])]
    rfl
  rw [currentUser, hbearer, getCurrentUser_eq_ok]
  exact ⟨u.id, rfl, (Table.get_eq_some _).mpr ⟨hu, rfl⟩⟩

theorem exists_not_blacklisted (blacklist : Keys ℕ ℚ) (jti : ℕ) :
    ∃ now, isBlacklisted blacklist now jti = false := by
  unfold isBlacklisted isLive
  cases blacklist jti with
  | none => exact ⟨0, rfl⟩
  | some deadline => exact ⟨deadline, by simp⟩

theorem bansEnforced_iff (hlife : 0 ≤ settings.accessTokenExpireMinutes) (w : AuthWorld) :
    BansEnforced jose settings ext w ↔ NoneBanned w.store := by
  constructor
  · intro h u hu
    cases hbanned : u.isBanned with
    | false => rfl
    | true =>
      obtain ⟨now, hjti⟩ := exists_not_blacklisted w.blacklist 0
      exact absurd (access_accepted jose hlife hu hjti)
        ((h u hu hbanned now).access _ (.access (tokenPayload u) 0 now rfl) u)
  · intro h u hu hbanned
    exact absurd ((h u hu).symm.trans hbanned) (by decide)

end

/-! ### Runs -/

/-- Bans are enforced throughout a run exactly if nobody is banned in it. -/
theorem bans_enforced_iff {τ : Type} (jose : Jose τ) (settings : TokenSettings)
    (hlife : 0 ≤ settings.accessTokenExpireMinutes) (ext : Ext) (w : AuthWorld)
    (es : List (AuthEvent τ)) :
    Always (AuthWorld.step jose ext) (BansEnforced jose settings ext) w es ↔
      NoneBanned w.store ∧ Along (AuthWorld.step jose ext) (BansNobody jose) w es := by
  have hstates : Always (AuthWorld.step jose ext) (BansEnforced jose settings ext) w es ↔
      Always (AuthWorld.step jose ext) (fun v => NoneBanned v.store) w es :=
    ⟨Always.mono fun v => (bansEnforced_iff hlife v).mp,
      Always.mono fun v => (bansEnforced_iff hlife v).mpr⟩
  have hsteps : Always (AuthWorld.step jose ext) (fun v => NoneBanned v.store) w es ∧
      Along (AuthWorld.step jose ext) (fun _ _ => True) w es ↔
        NoneBanned w.store ∧ Along (AuthWorld.step jose ext) (BansNobody jose) w es :=
    always_and_along_iff fun v e hv => by rw [and_true, noneBanned_step_iff v e hv]
  rw [hstates, ← hsteps]
  exact (and_iff_left (along_of_forall fun _ _ _ => trivial)).symm

def adminAccess : Claims := accessClaims sampleSettings ⟨3, .hotelAdmin, some 1⟩ 5 1000

def banSample : AuthEvent Claims :=
  ⟨1000, .serve (sampleEnv "txn_1") (some adminAccess)
    (.user (.ban 1 ⟨true, some "chargeback"⟩))⟩

def bannedSample : AuthWorld :=
  AuthWorld.step plainJose sampleExt ⟨sampleStore, fun _ => none⟩ banSample

theorem bans_enforced_iff_quiet :
    Always (AuthWorld.step plainJose sampleExt) (BansEnforced plainJose sampleSettings sampleExt)
        ⟨sampleStore, fun _ => none⟩ [⟨1000, .refresh (samplePair.refresh sampleSettings)⟩] ↔
      NoneBanned sampleStore ∧ Along (AuthWorld.step plainJose sampleExt) (BansNobody plainJose)
        ⟨sampleStore, fun _ => none⟩ [⟨1000, .refresh (samplePair.refresh sampleSettings)⟩] :=
  bans_enforced_iff plainJose sampleSettings (by decide) sampleExt ⟨sampleStore, fun _ => none⟩ _

theorem banned_guest_served :
    (bannedSample.store.users.get 1).any User.isBanned = true ∧
    loginEndpoint sampleExt bannedSample.store "a@x.org" "secret" = .ok ⟨1, .guest, none⟩ ∧
    (socialLogin sampleExt (sampleEnv "txn_1") bannedSample.store
      (some ⟨some "a@x.org", none, none, none⟩)).toOption.map Prod.fst =
        some ⟨1, .guest, none⟩ ∧
    (googleLogin sampleExt (sampleEnv "txn_1") bannedSample.store
      (.ok ⟨some "a@x.org", none, none, none⟩)).toOption.map Prod.fst =
        some ⟨1, .guest, none⟩ ∧
    (refreshEndpoint plainJose sampleSettings bannedSample 1100 (8, 9)
      (samplePair.refresh sampleSettings)).isOk = true ∧
    bearerOf plainJose bannedSample 1100 (some (samplePair.access sampleSettings)) = some 1 ∧
    websocketEndpoint plainJose bannedSample 1100 1
      (some (samplePair.access sampleSettings)) = .ok () ∧
    ¬Always (AuthWorld.step plainJose sampleExt)
      (BansEnforced plainJose sampleSettings sampleExt) ⟨sampleStore, fun _ => none⟩
        [banSample] := by
  have hbanned : (bannedSample.store.users.get 1).any User.isBanned = true := by decide +kernel
  have hlogin : loginEndpoint sampleExt bannedSample.store "a@x.org" "secret" =
      .ok ⟨1, .guest, none⟩ := by decide +kernel
  refine ⟨hbanned, hlogin, by decide +kernel, by decide +kernel, by decide +kernel,
    by decide +kernel, by decide +kernel, fun h => ?_⟩
  obtain ⟨u, hu, hflag⟩ := (Option.any_eq_true _ _).mp hbanned
  obtain ⟨hmem, hid⟩ := (Table.get_eq_some _).mp hu
  exact (h.2 u hmem hflag 1100).login _ _ _ hlogin hid.symm

end HotelMs
