import HotelMs.Api
import HotelMs.Lib.ExpiringKeys
import HotelMs.Lib.Runs
import Mathlib.Data.Rat.Floor

/-!
# Tokens and their revocation

`core/security.py`, `services/token_blacklist.py`, the token checks of
`get_current_user` and `websocket_endpoint`, and the logout and refresh of
`api/v1/public/auth.py`. Times are seconds since the epoch; tokens and the
blacklist are read in whole seconds. Redis answers and evicts nothing.
-/

namespace HotelMs

open Tables Runs ExpiringKeys

/-! ### Tokens -/

inductive TokenType
  | access
  | refresh
  deriving DecidableEq

/-- `jti` is a `uuid4`; tokens from before that field was added have none. -/
structure Claims extends TokenPayload where
  type : TokenType
  jti : Option ℕ
  exp : ℤ
  deriving DecidableEq

structure TokenSettings where
  accessTokenExpireMinutes : ℤ
  refreshTokenExpireDays : ℤ

/-- python-jose with the application's key: signed claims come back as they
were until the second `exp` is over, and nothing else is accepted after its. -/
structure Jose (τ : Type) where
  encode : Claims → τ
  decode : ℤ → τ → Option Claims
  decode_encode : ∀ now c, decode now (encode c) = if now ≤ c.exp then some c else none
  unexpired : ∀ now t c, decode now t = some c → now ≤ c.exp

section

variable {τ : Type} (jose : Jose τ) (settings : TokenSettings)

/-- `exp` is stored in whole seconds. -/
def buildToken (data : TokenPayload) (type : TokenType) (jti : ℕ) (now : ℚ)
    (expiresDelta : ℤ) : Claims where
  toTokenPayload := data
  type := type
  jti := some jti
  exp := ⌊now + expiresDelta⌋

def accessClaims (data : TokenPayload) (jti : ℕ) (now : ℚ) : Claims :=
  buildToken data .access jti now (settings.accessTokenExpireMinutes * 60)

def refreshClaims (data : TokenPayload) (jti : ℕ) (now : ℚ) : Claims :=
  buildToken data .refresh jti now (settings.refreshTokenExpireDays * 86400)

def createAccessToken (data : TokenPayload) (jti : ℕ) (now : ℚ) : τ :=
  jose.encode (accessClaims settings data jti now)

def createRefreshToken (data : TokenPayload) (jti : ℕ) (now : ℚ) : τ :=
  jose.encode (refreshClaims settings data jti now)

/-! ### The blacklist -/

/-- The database and the `bl:jti:` keys of Redis. -/
structure AuthWorld where
  store : Store
  blacklist : Keys ℕ ℚ

def blacklistToken (blacklist : Keys ℕ ℚ) (now : ℚ) (jti : ℕ) (exp : ℤ) : Keys ℕ ℚ :=
  setex blacklist jti now (remaining exp now)

def isBlacklisted (blacklist : Keys ℕ ℚ) (now : ℚ) (jti : ℕ) : Bool := isLive blacklist now jti

/-- One round of the loop of `logout_endpoint`. -/
def revoke (now : ℚ) (blacklist : Keys ℕ ℚ) (token : τ) : Keys ℕ ℚ :=
  match jose.decode ⌊now⌋ token with
  | none => blacklist
  | some payload =>
    match payload.jti with
    | none => blacklist
    | some jti =>
      if payload.exp ≠ 0 then blacklistToken blacklist now jti payload.exp else blacklist

def logoutEndpoint (blacklist : Keys ℕ ℚ) (now : ℚ) (token : τ) (refreshToken : Option τ) :
    Keys ℕ ℚ :=
  (token :: refreshToken.toList).foldl (revoke jose now) blacklist

/-! ### Where tokens are accepted -/

/-- The user id `get_current_user` takes from the token. -/
def bearerOf (w : AuthWorld) (now : ℚ) (token : Option τ) : Bearer := do
  let token ← token
  let payload ← jose.decode ⌊now⌋ token
  if payload.type ≠ .access then none
  else if payload.jti.any (isBlacklisted w.blacklist now) then none
  else some payload.userId

def currentUser (w : AuthWorld) (now : ℚ) (token : Option τ) : Except Error User :=
  getCurrentUser w.store (bearerOf jose w now token)

/-- The error is the reason the socket is closed with. -/
def websocketEndpoint (w : AuthWorld) (now : ℚ) (userId : ℤ) (token : Option τ) :
    Except String Unit :=
  match token with
  | none => .error "Missing authentication token"
  | some token =>
    match jose.decode ⌊now⌋ token with
    | none => .error "Invalid or expired token"
    | some payload =>
      if payload.type ≠ .access then .error "Invalid token type"
      else if payload.userId ≠ userId then .error "Token does not match user"
      else if payload.jti.any (isBlacklisted w.blacklist now) then
        .error "Token has been revoked"
      else .ok ()

def refreshExc : Error := .http 401 "Invalid or expired refresh token"

/-- The blacklist is not asked. The new tokens take the two fresh `jti`. -/
def refreshEndpoint (w : AuthWorld) (now : ℚ) (jtis : ℕ × ℕ) (refreshToken : τ) :
    Except Error (τ × τ) := do
  let payload ← found (jose.decode ⌊now⌋ refreshToken) refreshExc
  ensure (payload.type = .refresh) refreshExc
  ensure (payload.userId ≠ 0) refreshExc
  let user ← found (w.store.users.get payload.userId) refreshExc
  let data := tokenPayload user
  return (createAccessToken jose settings data jtis.1 now,
    createRefreshToken jose settings data jtis.2 now)

/-! ### Runs of requests -/

inductive AuthRequest (τ : Type)
  | serve (env : Env) (token : Option τ) (request : Request)
  | payment (env : Env) (c : PaymentCall)
  | websocket (userId : ℤ) (token : Option τ)
  | refresh (refreshToken : τ)
  | logout (token : τ) (refreshToken : Option τ)

structure AuthEvent (τ : Type) where
  now : ℚ
  request : AuthRequest τ

def AuthWorld.step (ext : Ext) (w : AuthWorld) (e : AuthEvent τ) : AuthWorld :=
  match e.request with
  | .serve env token request =>
    { w with store := HotelMs.serve ext env w.store (bearerOf jose w e.now token) request }
  | .payment env c => { w with store := (processPayment env w.store c).2 }
  | .websocket _ _ => w
  | .refresh _ => w
  | .logout token refreshToken =>
    { w with blacklist := logoutEndpoint jose w.blacklist e.now token refreshToken }

/-- Nobody accepts the access token, and the refresh token buys no new pair. -/
def NeitherAccepted (w : AuthWorld) (now : ℚ) (access refresh : τ) : Prop :=
  (∀ user, currentUser jose w now (some access) ≠ .ok user) ∧
    (∀ userId, websocketEndpoint jose w now userId (some access) ≠ .ok ()) ∧
    ∀ jtis pair, refreshEndpoint jose settings w now jtis refresh ≠ .ok pair

/-! ### What a logout leaves in the blacklist -/

/-- The event is a logout with an unexpired token of this `jti`. -/
def AuthEvent.revokes (jti : ℕ) (e : AuthEvent τ) : Bool :=
  match e.request with
  | .logout token refreshToken => (token :: refreshToken.toList).any fun t =>
    (jose.decode ⌊e.now⌋ t).bind Claims.jti = some jti
  | _ => false

/-- When the `jti` was last revoked, if it was at `s`. -/
def lastRevoked (jti : ℕ) : ℚ → List (AuthEvent τ) → ℚ
  | s, [] => s
  | s, e :: es => lastRevoked jti (if e.revokes jose jti then e.now else s) es

/-- No other token a logout is called with has the `jti` of these claims. -/
def AuthEvent.Unique (claims : Claims) (e : AuthEvent τ) : Prop :=
  match e.request with
  | .logout token refreshToken => ∀ t ∈ token :: refreshToken.toList, ∀ payload,
    jose.decode ⌊e.now⌋ t = some payload → payload.jti = claims.jti → payload = claims
  | _ => True

end

section

variable {τ : Type} {jose : Jose τ} {settings : TokenSettings} {claims : Claims} {jti : ℕ}

theorem revoke_apply {now : ℚ} {blacklist : Keys ℕ ℚ} {token : τ} (hexp : claims.exp ≠ 0)
    (honly : ∀ payload, jose.decode ⌊now⌋ token = some payload → payload.jti = some jti →
      payload = claims) :
    revoke jose now blacklist token jti =
      if (jose.decode ⌊now⌋ token).bind Claims.jti = some jti then
        some (now + remaining claims.exp now)
      else blacklist jti := by
  unfold revoke
  cases hd : jose.decode ⌊now⌋ token with
  | none => rw [if_neg (by simp)]
  | some payload =>
    rcases Option.eq_none_or_eq_some payload.jti with hj | ⟨j, hj⟩
    · simp only [Option.bind_some, hj]
      rw [if_neg (by simp)]
    · by_cases he : j = jti
      · subst he
        obtain rfl := honly payload hd hj
        simp only [Option.bind_some, hj, if_pos hexp, if_true, blacklistToken, setex_apply]
      · have hne : ¬some j = some jti := fun h => he (Option.some.inj h)
        simp only [Option.bind_some, hj, if_neg hne]
        split
        · simp only [blacklistToken, setex_apply, if_neg (Ne.symm he)]
        · rfl

theorem foldl_revoke_apply {now : ℚ} (hexp : claims.exp ≠ 0) (tokens : List τ)
    (blacklist : Keys ℕ ℚ)
    (honly : ∀ t ∈ tokens, ∀ payload, jose.decode ⌊now⌋ t = some payload →
      payload.jti = some jti → payload = claims) :
    tokens.foldl (revoke jose now) blacklist jti =
      if tokens.any fun t => (jose.decode ⌊now⌋ t).bind Claims.jti = some jti then
        some (now + remaining claims.exp now)
      else blacklist jti := by
  induction tokens generalizing blacklist with
  | nil => rfl
  | cons token tokens ih =>
    rw [List.foldl_cons, ih _ fun t ht => honly t (List.mem_cons_of_mem _ ht),
      revoke_apply hexp (honly token (List.mem_cons_self ..)), List.any_cons]
    by_cases hrest : tokens.any fun t => (jose.decode ⌊now⌋ t).bind Claims.jti = some jti
    · simp only [hrest, Bool.or_true, if_true]
    · simp only [hrest, Bool.or_false, decide_eq_true_eq, Bool.false_eq_true, if_false]

theorem step_blacklist (ext : Ext) (hj : claims.jti = some jti) (hexp : claims.exp ≠ 0)
    (w : AuthWorld) (e : AuthEvent τ) (honly : e.Unique jose claims) :
    (w.step jose ext e).blacklist jti =
      if e.revokes jose jti then some (e.now + remaining claims.exp e.now)
      else w.blacklist jti := by
  obtain ⟨now, request⟩ := e
  cases request with
  | logout token refreshToken =>
    simp only [AuthEvent.Unique, hj] at honly
    exact foldl_revoke_apply hexp _ _ honly
  | serve env token request => rfl
  | payment env c => rfl
  | websocket userId token => rfl
  | refresh refreshToken => rfl

theorem revokes_unexpired {e : AuthEvent τ} (hj : claims.jti = some jti)
    (honly : e.Unique jose claims) (h : e.revokes jose jti = true) : ⌊e.now⌋ ≤ claims.exp := by
  obtain ⟨now, request⟩ := e
  cases request with
  | logout token refreshToken =>
    simp only [AuthEvent.revokes, List.any_eq_true, decide_eq_true_eq,
      Option.bind_eq_some_iff] at h
    obtain ⟨t, ht, payload, hd, hp⟩ := h
    have hsame := honly t ht payload hd (hp.trans hj.symm)
    rw [← hsame]
    exact jose.unexpired _ _ _ hd
  | _ => cases h

/-- The entry of a revoked `jti` ends with the time to live of its last logout. -/
theorem run_blacklist (ext : Ext) (hj : claims.jti = some jti) (hexp : claims.exp ≠ 0)
    {w : AuthWorld} {s : ℚ} (hs : ⌊s⌋ ≤ claims.exp)
    (hw : w.blacklist jti = some (s + remaining claims.exp s)) (es : List (AuthEvent τ))
    (honly : ∀ e ∈ es, e.Unique jose claims) :
    ⌊lastRevoked jose jti s es⌋ ≤ claims.exp ∧
      (run (AuthWorld.step jose ext) w es).blacklist jti =
        some (lastRevoked jose jti s es + remaining claims.exp (lastRevoked jose jti s es)) := by
  induction es generalizing w s with
  | nil => exact ⟨hs, hw⟩
  | cons e es ih =>
    have he := honly e (List.mem_cons_self ..)
    have hstep := step_blacklist ext hj hexp w e he
    have hrest := fun x hx => honly x (List.mem_cons_of_mem e hx)
    rw [run_cons]
    unfold lastRevoked
    cases hr : e.revokes jose jti with
    | true =>
      rw [hr] at hstep
      exact ih (revokes_unexpired hj he hr) hstep hrest
    | false =>
      rw [hr] at hstep
      exact ih hs (hstep.trans hw) hrest

/-! ### Who accepts a token -/

theorem access_refused_iff (jose : Jose τ) (w : AuthWorld) (now : ℚ) (claims : Claims)
    (htype : claims.type = .access)
    (hj : claims.jti = some jti) :
    ((∀ user, currentUser jose w now (some (jose.encode claims)) ≠ .ok user) ∧
        ∀ userId, websocketEndpoint jose w now userId (some (jose.encode claims)) ≠ .ok ()) ↔
      ¬(⌊now⌋ ≤ claims.exp ∧ isBlacklisted w.blacklist now jti = false) := by
  have hdecode := jose.decode_encode ⌊now⌋ claims
  constructor
  · intro h hgood
    rw [if_pos hgood.1] at hdecode
    refine h.2 claims.userId ?_
    simp [websocketEndpoint, hdecode, htype, hj, hgood.2]
  · intro hbad
    have hrefused : jose.decode ⌊now⌋ (jose.encode claims) = none ∨
        jose.decode ⌊now⌋ (jose.encode claims) = some claims ∧
          isBlacklisted w.blacklist now jti = true := by
      rw [hdecode]
      by_cases hexp : ⌊now⌋ ≤ claims.exp
      · refine Or.inr ⟨if_pos hexp, ?_⟩
        rw [← Bool.not_eq_false]
        exact fun hb => hbad ⟨hexp, hb⟩
      · exact Or.inl (if_neg hexp)
    constructor
    · intro user hu
      have hbearer : bearerOf jose w now (some (jose.encode claims)) = none := by
        rcases hrefused with hd | ⟨hd, hb⟩
        · simp [bearerOf, hd]
        · simp [bearerOf, hd, htype, hj, hb]
      rw [currentUser, hbearer] at hu
      cases hu
    · intro userId hws
      rcases hrefused with hd | ⟨hd, hb⟩
      · simp [websocketEndpoint, hd] at hws
      · simp only [websocketEndpoint, hd, htype, hj, Option.any_some, hb, ne_eq, not_true_eq_false,
          if_false, if_true] at hws
        split at hws <;> cases hws

theorem refresh_refused_iff (jose : Jose τ) (settings : TokenSettings) (w : AuthWorld) (now : ℚ)
    (claims : Claims) (htype : claims.type = .refresh) :
    (∀ jtis pair, refreshEndpoint jose settings w now jtis (jose.encode claims) ≠ .ok pair) ↔
      claims.exp < ⌊now⌋ ∨ claims.userId = 0 ∨ w.store.users.get claims.userId = none := by
  have hdecode := jose.decode_encode ⌊now⌋ claims
  constructor
  · intro h
    by_contra hgood
    push Not at hgood
    obtain ⟨hexp, hid, huser⟩ := hgood
    obtain ⟨user, huser⟩ := Option.ne_none_iff_exists'.mp huser
    rw [if_pos hexp] at hdecode
    refine h (0, 0) (createAccessToken jose settings (tokenPayload user) 0 now,
      createRefreshToken jose settings (tokenPayload user) 0 now) ?_
    simp only [refreshEndpoint, bind_eq_ok, found_eq_ok, ensure_eq_ok, pure_eq_ok]
    exact ⟨claims, hdecode, (), htype, (), hid, user, huser, rfl⟩
  · intro h jtis pair hok
    simp only [refreshEndpoint, bind_eq_ok, found_eq_ok, ensure_eq_ok, pure_eq_ok] at hok
    obtain ⟨payload, hp, _, _, _, hid, user, huser, _⟩ := hok
    rw [hdecode] at hp
    split at hp
    next hexp =>
      cases hp
      rcases h with h | h | h
      · exact absurd hexp (not_le.mpr h)
      · exact hid h
      · rw [h] at huser
        cases huser
    · cases hp

end

/-! ### After a logout with both tokens -/

/-- An access and a refresh token issued together, by a login or a refresh. -/
structure TokenPair where
  user : User
  accessJti : ℕ
  refreshJti : ℕ
  distinct : accessJti ≠ refreshJti
  accessAt : ℚ
  refreshAt : ℚ

section

variable {τ : Type} (jose : Jose τ) (settings : TokenSettings) (p : TokenPair)

def TokenPair.access : Claims := accessClaims settings (tokenPayload p.user) p.accessJti p.accessAt

def TokenPair.refresh : Claims :=
  refreshClaims settings (tokenPayload p.user) p.refreshJti p.refreshAt

def TokenPair.accessToken : τ :=
  createAccessToken jose settings (tokenPayload p.user) p.accessJti p.accessAt

def TokenPair.refreshToken : τ :=
  createRefreshToken jose settings (tokenPayload p.user) p.refreshJti p.refreshAt

/-- The events, after a logout with both tokens at `s`. -/
def TokenPair.loggedOut (ext : Ext) (w : AuthWorld) (s : ℚ) (es : List (AuthEvent τ)) :
    AuthWorld :=
  run (AuthWorld.step jose ext) w
    (⟨s, .logout (p.accessToken jose settings) (some (p.refreshToken jose settings))⟩ :: es)

variable {jose settings p}

theorem logout_unique (s : ℚ) :
    AuthEvent.Unique jose (p.access settings)
      ⟨s, .logout (p.accessToken jose settings) (some (p.refreshToken jose settings))⟩ := by
  have hdecode : ∀ c payload, jose.decode ⌊s⌋ (jose.encode c) = some payload → payload = c := by
    intro c payload hp
    rw [jose.decode_encode] at hp
    split at hp
    · cases hp
      rfl
    · cases hp
  intro t ht payload hp hjti
  rcases List.mem_cons.mp ht with rfl | ht
  · exact hdecode _ _ hp
  · obtain rfl := List.mem_singleton.mp ht
    have hrefresh := hdecode _ _ hp
    rw [hrefresh] at hjti
    exact absurd (Option.some.inj hjti).symm p.distinct

/-- The access token stays revoked but for the last second of its life. The
refresh token is as good as before. -/
theorem revocation_complete_iff (jose : Jose τ) (settings : TokenSettings) (ext : Ext)
    (p : TokenPair) (w : AuthWorld) (s : ℚ) (hepoch : 1 ≤ s)
    (hlive : ⌊s⌋ ≤ (p.access settings).exp) (es : List (AuthEvent τ))
    (hunique : ∀ e ∈ es, e.Unique jose (p.access settings)) (t : ℚ) :
    NeitherAccepted jose settings (p.loggedOut jose settings ext w s es) t
        (p.accessToken jose settings) (p.refreshToken jose settings) ↔
      ((p.refresh settings).exp < ⌊t⌋ ∨ p.user.id = 0 ∨
        (p.loggedOut jose settings ext w s es).store.users.get p.user.id = none) ∧
      ¬(⌊t⌋ = (p.access settings).exp ∧
        ⌊lastRevoked jose p.accessJti s es⌋ < (p.access settings).exp ∧
        Int.fract (lastRevoked jose p.accessJti s es) ≤ Int.fract t) := by
  have hexp : (p.access settings).exp ≠ 0 := by
    have hone : 1 ≤ ⌊s⌋ := by
      rw [Int.le_floor]
      exact_mod_cast hepoch
    omega
  have hjti : (p.access settings).jti = some p.accessJti := rfl
  -- the logout itself sets the key of the access token
  have hset : (w.step jose ext ⟨s, .logout (p.accessToken jose settings)
      (some (p.refreshToken jose settings))⟩).blacklist p.accessJti =
      some (s + remaining (p.access settings).exp s) := by
    have hdecode : jose.decode ⌊s⌋ (p.accessToken jose settings) = some (p.access settings) :=
      (jose.decode_encode _ _).trans (if_pos hlive)
    rw [step_blacklist ext hjti hexp _ _ (logout_unique s), if_pos]
    simp [AuthEvent.revokes, hdecode, hjti]
  obtain ⟨hlast, hentry⟩ := run_blacklist ext hjti hexp hlive hset es hunique
  have hblack : isBlacklisted (p.loggedOut jose settings ext w s es).blacklist t p.accessJti =
      false ↔ ¬t < lastRevoked jose p.accessJti s es +
        remaining (p.access settings).exp (lastRevoked jose p.accessJti s es) := by
    rw [isBlacklisted, isLive, TokenPair.loggedOut, run_cons, hentry]
    simp
  have haccess := access_refused_iff jose (p.loggedOut jose settings ext w s es) t
    (p.access settings) rfl hjti
  have hrefresh := refresh_refused_iff jose settings (p.loggedOut jose settings ext w s es) t
    (p.refresh settings) rfl
  rw [hblack, gone_before_deadline_iff hlast] at haccess
  unfold NeitherAccepted
  rw [← and_assoc, and_comm]
  exact and_congr hrefresh haccess

end

/-- Tokens that are their own claims. -/
def plainJose : Jose Claims where
  encode := id
  decode := fun now c => if now ≤ c.exp then some c else none
  decode_encode := fun _ _ => rfl
  unexpired := by
    intro now t c h
    split at h
    next hle =>
      cases h
      exact hle
    · cases h

def sampleSettings : TokenSettings := ⟨30, 7⟩

def samplePair : TokenPair :=
  ⟨{ sampleUser .guest "a@x.org" none with id := 1 }, 1, 2, by decide, 1000, 1000⟩

def loggedOutSample : AuthWorld :=
  samplePair.loggedOut plainJose sampleSettings sampleExt ⟨sampleStore, fun _ => none⟩ 1100 []

theorem revocation_complete_iff_expired :
    NeitherAccepted plainJose sampleSettings loggedOutSample 1000000
      (samplePair.accessToken plainJose sampleSettings)
      (samplePair.refreshToken plainJose sampleSettings) := by
  refine (revocation_complete_iff plainJose sampleSettings sampleExt samplePair _ 1100 (by norm_num)
    (by decide +kernel) [] (fun _ he => absurd he List.not_mem_nil) 1000000).mpr
    ⟨Or.inl (by decide +kernel), ?_⟩
  intro h
  exact absurd h.1 (by decide +kernel)

def revivedAccess : Claims := ⟨⟨1, .guest, none⟩, .access, some 3, 3000⟩

def revivedRefresh : Claims := ⟨⟨1, .guest, none⟩, .refresh, some 4, 606000⟩

theorem refresh_outlives_logout :
    ⌊(1100 : ℚ)⌋ ≤ (samplePair.access sampleSettings).exp ∧
    ⌊(1100 : ℚ)⌋ ≤ (samplePair.refresh sampleSettings).exp ∧
    refreshEndpoint plainJose sampleSettings loggedOutSample 1200 (3, 4)
      (samplePair.refreshToken plainJose sampleSettings) = .ok (revivedAccess, revivedRefresh) ∧
    bearerOf plainJose loggedOutSample 1201 (some revivedAccess) = some 1 ∧
    (loggedOutSample.store.users.get 1).isSome = true ∧
    websocketEndpoint plainJose loggedOutSample 2800 1
      (some (samplePair.accessToken plainJose sampleSettings)) = .ok () := by
  decide +kernel

/-! ### The last second of a token -/

/-- A logout at `s` keeps the token revoked at `t` exactly when it fell into the
token's last second, or `t` is not as far into that second as `s` was into its
own. -/
theorem revoked_while_accepted_iff {τ : Type} (jose : Jose τ) (claims : Claims) (jti : ℕ)
    (hjti : claims.jti = some jti) (blacklist : Keys ℕ ℚ) (token : τ) (refreshToken : Option τ)
    (hin : jose.encode claims ∈ token :: refreshToken.toList) (s t : ℚ) (hepoch : 1 ≤ s)
    (honly : ∀ other ∈ token :: refreshToken.toList, ∀ payload,
      jose.decode ⌊s⌋ other = some payload → payload.jti = some jti → payload = claims)
    (hs : jose.decode ⌊s⌋ (jose.encode claims) = some claims)
    (ht : jose.decode ⌊t⌋ (jose.encode claims) = some claims) :
    isBlacklisted (logoutEndpoint jose blacklist s token refreshToken) t jti = true ↔
      ⌊s⌋ = claims.exp ∨ t < claims.exp + Int.fract s := by
  have hlive := jose.unexpired _ _ _ hs
  have hexp : claims.exp ≠ 0 := by
    have hone : 1 ≤ ⌊s⌋ := by
      rw [Int.le_floor]
      exact_mod_cast hepoch
    omega
  have hset : logoutEndpoint jose blacklist s token refreshToken jti =
      some (s + remaining claims.exp s) := by
    have hany : (token :: refreshToken.toList).any
        (fun other => (jose.decode ⌊s⌋ other).bind Claims.jti = some jti) = true := by
      rw [List.any_eq_true]
      exact ⟨_, hin, by simp [hs, hjti]⟩
    unfold logoutEndpoint
    rw [foldl_revoke_apply hexp _ _ honly, if_pos hany]
  rw [isBlacklisted, isLive, hset, Option.any_some, decide_eq_true_eq]
  exact lt_add_remaining_iff hlive (jose.unexpired _ _ _ ht)

def lateClaims : Claims := ⟨⟨1, .guest, none⟩, .access, some 1, 2800⟩

theorem revoked_while_accepted_iff_last :
    isBlacklisted (logoutEndpoint plainJose (fun _ => none) (5601 / 2) lateClaims none)
      (28009 / 10) 1 = true := by
  refine (revoked_while_accepted_iff plainJose lateClaims 1 rfl (fun _ => none) lateClaims none
    (List.mem_singleton.mpr rfl) (5601 / 2) (28009 / 10) (by norm_num) (fun other hother => ?_)
    (by decide +kernel) (by decide +kernel)).mpr (Or.inl (by decide +kernel))
  obtain rfl := List.mem_singleton.mp hother
  intro payload hp _
  have hsame : plainJose.decode ⌊(5601 / 2 : ℚ)⌋ lateClaims = some lateClaims := by decide +kernel
  exact Option.some.inj (hp.symm.trans hsame)

theorem token_outlives_revocation :
    plainJose.decode ⌊(4401 / 4 : ℚ)⌋ (plainJose.encode lateClaims) = some lateClaims ∧
    plainJose.decode ⌊(5601 / 2 : ℚ)⌋ (plainJose.encode lateClaims) = some lateClaims ∧
    isBlacklisted (logoutEndpoint plainJose (fun _ => none) (4401 / 4)
      (plainJose.encode lateClaims) none) (5601 / 2) 1 = false := by
  decide +kernel

end HotelMs
