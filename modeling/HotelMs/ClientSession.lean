import HotelMs.ClientTokens
import HotelMs.ProfileCache

/-!
# Who is signed in on a page

`contexts/AuthContext.jsx` with the storage of the browser, the interceptors of
`services/api.js`, the logouts of the menu and of the two panels, and
`routes/PrivateRoute.jsx`, in front of `get_profile`. A request carries the token
that is stored when it is sent; its answer may come after any other event. One
tab; a token is the claims it was made with.
-/

namespace HotelMs

open Tables ReadThrough Runs Json Base64

/-- What happens to the profile once it is there: the effect of a page that was
loaded, without a cached profile and with one, `loginUser`, `refreshProfile`. -/
inductive FetchUse
  | restore
  | renew
  | signIn
  | refresh
  deriving DecidableEq

/-- A request for the profile. `answer` is what the server said, once it has. -/
structure ProfileFetch where
  token : Option Claims
  use : FetchUse
  answer : Option (Except Error Profile)

/-- `accessToken` and `profileCache` are the browser's storage. The refresh token
is removed from it, but nothing puts one there. -/
structure ClientPage where
  token : Option Claims
  jwtData : Option Loaded
  profile : Option Profile
  isLoading : Bool
  accessToken : Option Claims
  profileCache : Option Profile
  fetches : List ProfileFetch

/-- The answer of `get_profile` as the page has it. -/
def Profile.payload (p : Profile) : List (String × Loaded) :=
  [("id", .int p.id), ("full_name", p.fullName.elim .null .str), ("email", .str p.email),
    ("phone", p.phone.elim .null .str), ("photo_url", p.photoUrl.elim .null .str),
    ("role", .str p.role.value), ("hotel_id", p.hotelId.elim .null .int)]

/-- `{...a, ...b}`, as far as a lookup can tell. -/
def objectSpread (a b : Loaded) : Loaded :=
  match a, b with
  | .dict fields, .dict fields' => .dict (fields ++ fields')
  | a, _ => a

/-- `path.startsWith` of the response interceptor. -/
def isProtected (path : String) : Bool :=
  path.startsWith "/admin" || path.startsWith "/user/" || path.startsWith "/staff/" ||
    path == "/dashboard"

inductive Gate
  | spinner
  | login
  | home
  | children
  deriving DecidableEq

namespace ClientPage

section

variable (algorithm : String) (sign : List Char → List Byte) (p : ClientPage)

/-- `decodeJwt` of the text of a token. -/
def readToken (c : Claims) : Option Loaded := decodeJwt (jwtEncode algorithm sign c)

def user : Option Loaded :=
  p.jwtData.map fun jwt => objectSpread jwt (.dict (p.profile.elim [] Profile.payload))

def role : Option String := p.user.bind payloadRole

def privateRoute (roles : Option (List String)) : Gate :=
  if p.isLoading then .spinner
  else if p.token = none then .login
  else match roles with
    | none => .children
    | some roles => if ∃ role, p.role = some role ∧ role ∈ roles then .children else .home

def send (use : FetchUse) : ClientPage :=
  { p with fetches := p.fetches ++ [⟨p.accessToken, use, none⟩] }

/-- The state of a page is new, and whatever was asked before is not heard. -/
def load : ClientPage :=
  let q := { p with
    token := p.accessToken
    jwtData := p.accessToken.bind (readToken algorithm sign)
    profile := none
    isLoading := false
    fetches := [] }
  match p.accessToken, p.profileCache with
  | none, _ => q
  | some _, some cached => { q with profile := some cached }.send .renew
  | some _, none => { q with isLoading := true }.send .restore

def loginUser (c : Claims) : ClientPage :=
  { p with
    accessToken := some c
    token := some c
    jwtData := readToken algorithm sign c }.send .signIn

def logoutUser : ClientPage :=
  { p with
    accessToken := none, profileCache := none, token := none, jwtData := none, profile := none }

/-- `logout` of the panels of admins and staff. -/
def panelLogout : ClientPage := { p with accessToken := none }

/-- What follows `fetchProfile`, which answers `null` when the request failed. -/
def settle (use : FetchUse) (profile : Option Profile) : ClientPage :=
  let cached := profile.orElse fun _ => p.profileCache
  match use with
  | .restore => { p with profile, profileCache := cached, isLoading := false }
  | .renew => { p with profile := profile.orElse fun _ => p.profile, profileCache := cached }
  | .signIn => { p with profile, profileCache := cached }
  | .refresh => { p with profile }

/-- The redirect of a protected page loads `/login`. -/
def redirected (path : String) : ClientPage := if isProtected path then p.load algorithm sign else p

def Error.status : Error → Option ℕ
  | .http status _ => some status
  | _ => none

/-- The interceptor of responses comes before what waits for them. -/
def settleAnswer (use : FetchUse) (path : String) : Except Error Profile → ClientPage
  | .ok profile => p.settle use (some profile)
  | .error e =>
    if Error.status e = some 401 then
      ({ p with accessToken := none }.settle use none).redirected algorithm sign path
    else p.settle use none

def drop (n : ℕ) : ClientPage := { p with fetches := p.fetches.eraseIdx n }

end

/-- A browser that was never here. -/
def start : ClientPage := ⟨none, none, none, false, none, none, []⟩

end ClientPage

structure ClientWorld where
  server : ProfileWorld
  page : ClientPage

/-- A request reaches the server at any time after it was sent, where its token
may be expired or revoked by then. `path` is the page an answer finds. -/
inductive ClientEvent
  | server (e : ProfileEvent)
  | load
  | signIn (c : Claims)
  | menuLogout
  | panelLogout
  | refresh
  | serve (n : ℕ) (accepted : Bool)
  | arrives (n : ℕ) (path : String)
  | fails (n : ℕ)
  | unauthorized (path : String)

section

variable (ext : Ext) (algorithm : String) (sign : List Char → List Byte)

def ProfileFetch.bearer (f : ProfileFetch) (accepted : Bool) : Bearer :=
  if accepted then f.token.map fun c => c.userId else none

def ClientWorld.step (w : ClientWorld) : ClientEvent → ClientWorld
  | .server e => { w with server := w.server.step ext e }
  | .load => { w with page := w.page.load algorithm sign }
  | .signIn c => { w with page := w.page.loginUser algorithm sign c }
  | .menuLogout => { w with page := w.page.logoutUser }
  | .panelLogout => { w with page := w.page.panelLogout }
  | .refresh => { w with page := w.page.send .refresh }
  | .serve n accepted =>
    match w.page.fetches[n]? with
    | some ⟨token, use, none⟩ =>
      let bearer := ProfileFetch.bearer ⟨token, use, none⟩ accepted
      { server := w.server.step ext (.get bearer)
        page := { w.page with
          fetches := w.page.fetches.set n ⟨token, use, some (getProfile w.server bearer).1⟩ } }
    | _ => w
  | .arrives n path =>
    match w.page.fetches[n]? with
    | some ⟨_, use, some answer⟩ =>
      { w with page := (w.page.drop n).settleAnswer algorithm sign use path answer }
    | _ => w
  | .fails n =>
    match w.page.fetches[n]? with
    | some f => { w with page := (w.page.drop n).settle f.use none }
    | none => w
  | .unauthorized path =>
    { w with page := { w.page with accessToken := none }.redirected algorithm sign path }

def ClientWorld.start (s : Store) : ClientWorld := ⟨.start s, .start⟩

/-! ### What a page is to show -/

/-- The page shows the account of its token: its id, no profile but its own, and
the role that the profile has, or the token as long as there is no profile. -/
def ClientPage.ShowsOwn (p : ClientPage) : Prop :=
  match p.token with
  | none => p.user = none
  | some c => ∃ user, p.user = some user ∧ user.field "user_id" = some (.int c.userId) ∧
      (∀ profile, p.profile = some profile → profile.id = c.userId) ∧
      p.role = some (p.profile.elim c.role Profile.role).value

/-- A spinner stands for a request that is under way. -/
def ClientPage.Waits (p : ClientPage) : Prop :=
  p.isLoading = true ↔ ∃ f ∈ p.fetches, f.use = .restore

/-- A guarded page opens for a token, by the role of its account. -/
def ClientPage.OpensByRole (p : ClientPage) : Prop :=
  ∀ roles, p.privateRoute (some roles) = .children →
    ∃ c, p.token = some c ∧ (p.profile.elim c.role Profile.role).value ∈ roles

/-- A sign-in finds no request under way and no profile of another account, on
the page or in the storage: the menu's logout leaves none. -/
def SignsInCleanly (w : ClientWorld) : ClientEvent → Prop
  | .signIn c => w.page.fetches.isEmpty = true ∧
      (∀ profile ∈ w.page.profile, profile.id = c.userId) ∧
      ∀ profile ∈ w.page.profileCache, profile.id = c.userId
  | _ => True

instance (w : ClientWorld) (e : ClientEvent) : Decidable (SignsInCleanly w e) :=
  match e with
  | .signIn _ => inferInstanceAs (Decidable (_ ∧ _))
  | .server _ | .load | .menuLogout | .panelLogout | .refresh | .serve .. | .arrives .. | .fails _
  | .unauthorized _ => isTrue trivial

/-! ### The account of a page -/

/-- What there is of profiles on the page, in the storage and on the way is of
one account. -/
structure ClientPage.Owned (p : ClientPage) (id : ℤ) : Prop where
  profile : ∀ profile ∈ p.profile, profile.id = id
  profileCache : ∀ profile ∈ p.profileCache, profile.id = id
  fetches : ∀ f ∈ p.fetches, ∀ c ∈ f.token, c.userId = id

/-- A profile is the one of the token its request carried. -/
def ProfileFetch.Brings (f : ProfileFetch) (profile : Option Profile) : Prop :=
  ∀ x ∈ profile, ∃ c ∈ f.token, x.id = c.userId

structure ClientPage.Sound (p : ClientPage) : Prop where
  claims : p.jwtData = p.token.bind (readToken algorithm sign)
  stored : ∀ c, p.accessToken = some c → p.token = some c
  waits : p.fetches.countP (fun f => f.use = .restore) = p.isLoading.toNat
  owned : ∀ c, p.token = some c → p.Owned c.userId
  answered : ∀ f ∈ p.fetches, ∀ profile, f.answer = some (.ok profile) →
    f.Brings (some profile)

namespace ClientPage.Sound

variable {algorithm sign}

theorem start : ClientPage.start.Sound algorithm sign :=
  ⟨rfl, (fun _ hnone => nomatch hnone), rfl, (fun _ hnone => nomatch hnone),
    fun _ hf => absurd hf List.not_mem_nil⟩

variable {p : ClientPage}

theorem dropToken (h : p.Sound algorithm sign) :
    ClientPage.Sound algorithm sign { p with accessToken := none } :=
  ⟨h.claims, (fun _ hnone => nomatch hnone), h.waits,
    fun c hc => ⟨(h.owned c hc).1, (h.owned c hc).2, (h.owned c hc).3⟩, h.answered⟩

theorem logout (h : p.Sound algorithm sign) : p.logoutUser.Sound algorithm sign :=
  ⟨rfl, (fun _ hnone => nomatch hnone), h.waits, (fun _ hnone => nomatch hnone), h.answered⟩

theorem send (h : p.Sound algorithm sign) {use : FetchUse} (huse : use ≠ .restore) :
    (p.send use).Sound algorithm sign := by
  obtain ⟨claims, stored, waits, owned, answered⟩ := h
  refine ⟨claims, stored, ?_, fun c hc => ⟨(owned c hc).1, (owned c hc).2, ?_⟩, ?_⟩
  · simp only [ClientPage.send, List.countP_append, waits, List.countP_singleton, huse,
      decide_false, Bool.false_eq_true, if_false, Nat.add_zero]
  · intro f hf c' hc'
    rcases List.mem_append.mp hf with hf | hf
    · exact (owned c hc).3 f hf c' hc'
    · obtain rfl := List.mem_singleton.mp hf
      have hsame : some c' = some c := (stored c' hc').symm.trans hc
      rw [Option.some.inj hsame]
  · intro f hf profile hanswer
    rcases List.mem_append.mp hf with hf | hf
    · exact answered f hf profile hanswer
    · obtain rfl := List.mem_singleton.mp hf
      cases hanswer

theorem fresh (h : p.Sound algorithm sign) : ClientPage.Sound algorithm sign { p with
    token := p.accessToken
    jwtData := p.accessToken.bind (readToken algorithm sign)
    profile := none
    isLoading := false
    fetches := [] } := by
  refine ⟨rfl, fun _ hc => hc, rfl, fun c hc =>
    ⟨(fun _ hnone => nomatch hnone), (h.owned c (h.stored c hc)).2, ?_⟩, ?_⟩
  · exact fun _ hf => absurd hf List.not_mem_nil
  · exact fun _ hf => absurd hf List.not_mem_nil

theorem withProfile (h : p.Sound algorithm sign) {x : Profile}
    (hx : ∀ c, p.token = some c → x.id = c.userId) :
    ClientPage.Sound algorithm sign { p with profile := some x } := by
  refine ⟨h.claims, h.stored, h.waits, fun c hc => ⟨fun y hy => ?_, ?_, ?_⟩, h.answered⟩
  · rw [← Option.some.inj hy]
    exact hx c hc
  · exact (h.owned c hc).2
  · exact (h.owned c hc).3

theorem load (h : p.Sound algorithm sign) : (p.load algorithm sign).Sound algorithm sign := by
  have hfresh := h.fresh
  unfold ClientPage.load
  dsimp only
  split
  · exact hfresh
  · next _ _ _ cached _ hcached =>
    exact (hfresh.withProfile fun c hc => (hfresh.owned c hc).2 cached hcached).send nofun
  · refine ⟨hfresh.claims, hfresh.stored, rfl, fun c hc =>
      ⟨(fun _ hnone => nomatch hnone), (hfresh.owned c hc).2, ?_⟩, ?_⟩
    · intro f hf x hx
      obtain rfl := List.mem_singleton.mp hf
      have hsame : some x = some c := hx.symm.trans hc
      rw [Option.some.inj hsame]
    · intro f hf profile hanswer
      obtain rfl := List.mem_singleton.mp hf
      cases hanswer

theorem redirected (h : p.Sound algorithm sign) (path : String) :
    (p.redirected algorithm sign path).Sound algorithm sign := by
  unfold ClientPage.redirected
  split
  · exact h.load
  · exact h

theorem loginUser (h : p.Sound algorithm sign) {c : Claims} (hquiet : p.fetches = [])
    (hprofile : ∀ x ∈ p.profile, x.id = c.userId)
    (hcache : ∀ x ∈ p.profileCache, x.id = c.userId) :
    (p.loginUser algorithm sign c).Sound algorithm sign := by
  have hsound : ClientPage.Sound algorithm sign
      { p with accessToken := some c, token := some c, jwtData := readToken algorithm sign c } := by
    refine ⟨(Option.bind_some ..).symm, fun _ hc => hc, h.waits, fun c' hc' => ?_, h.answered⟩
    obtain rfl : c = c' := Option.some.inj hc'
    refine ⟨hprofile, hcache, fun f hf => ?_⟩
    have hnone : f ∈ ([] : List ProfileFetch) := hquiet ▸ hf
    exact absurd hnone List.not_mem_nil
  exact hsound.send nofun

/-- What a request brings is of the account the page has by then. -/
theorem brought (h : p.Sound algorithm sign) {f : ProfileFetch} (hf : f ∈ p.fetches)
    {profile : Option Profile} (hbrings : f.Brings profile) {c : Claims} (hc : p.token = some c) :
    ∀ x ∈ profile, x.id = c.userId := by
  intro x hx
  obtain ⟨c', hc', hid⟩ := hbrings x hx
  rw [hid]
  exact (h.owned c hc).fetches f hf c' hc'

theorem brings_none (f : ProfileFetch) : f.Brings none :=
  fun _ hnone => nomatch hnone

theorem countP_eraseIdx {n : ℕ} {f : ProfileFetch} (hf : p.fetches[n]? = some f) :
    p.fetches.countP (fun f => f.use = .restore) =
      (p.fetches.eraseIdx n).countP (fun f => f.use = .restore) +
        if f.use = .restore then 1 else 0 := by
  obtain ⟨hn, rfl⟩ := List.getElem?_eq_some_iff.mp hf
  have hperm := List.getElem_cons_eraseIdx_perm hn
  rw [← hperm.countP_eq, List.countP_cons]
  simp only [decide_eq_true_eq]

theorem orElse_own {a b : Option Profile} {id : ℤ} (ha : ∀ x ∈ a, x.id = id)
    (hb : ∀ x ∈ b, x.id = id) : ∀ x ∈ a.orElse fun _ => b, x.id = id := by
  cases a with
  | none => exact hb
  | some a => exact ha

theorem settle (h : p.Sound algorithm sign) {n : ℕ} {f : ProfileFetch} (hf : p.fetches[n]? = some f)
    {profile : Option Profile} (hbrings : f.Brings profile) :
    ((p.drop n).settle f.use profile).Sound algorithm sign := by
  have hmem := List.mem_of_getElem? hf
  have hrest : ∀ g ∈ p.fetches.eraseIdx n, g ∈ p.fetches :=
    fun g hg => List.mem_of_mem_eraseIdx hg
  have hanswered := fun g hg => h.answered g (hrest g hg)
  have hcount := countP_eraseIdx hf
  rw [h.waits] at hcount
  cases huse : f.use with
  | restore =>
    rw [huse, if_pos rfl] at hcount
    have hloading := Bool.toNat_le p.isLoading
    refine ⟨h.claims, h.stored, ?_,
      fun c hc => ⟨h.brought hmem hbrings hc, ?_, ?_⟩, hanswered⟩
    · simp only [ClientPage.settle, ClientPage.drop, Bool.toNat_false]
      omega
    · exact orElse_own (h.brought hmem hbrings hc) (h.owned c hc).profileCache
    · exact fun g hg => (h.owned c hc).fetches g (hrest g hg)
  | renew =>
    rw [huse, if_neg nofun, Nat.add_zero] at hcount
    refine ⟨h.claims, h.stored, hcount.symm, fun c hc => ⟨?_, ?_, ?_⟩, hanswered⟩
    · exact orElse_own (h.brought hmem hbrings hc) (h.owned c hc).profile
    · exact orElse_own (h.brought hmem hbrings hc) (h.owned c hc).profileCache
    · exact fun g hg => (h.owned c hc).fetches g (hrest g hg)
  | signIn =>
    rw [huse, if_neg nofun, Nat.add_zero] at hcount
    refine ⟨h.claims, h.stored, hcount.symm,
      fun c hc => ⟨h.brought hmem hbrings hc, ?_, ?_⟩, hanswered⟩
    · exact orElse_own (h.brought hmem hbrings hc) (h.owned c hc).profileCache
    · exact fun g hg => (h.owned c hc).fetches g (hrest g hg)
  | refresh =>
    rw [huse, if_neg nofun, Nat.add_zero] at hcount
    refine ⟨h.claims, h.stored, hcount.symm,
      fun c hc => ⟨h.brought hmem hbrings hc, (h.owned c hc).profileCache, ?_⟩, hanswered⟩
    exact fun g hg => (h.owned c hc).fetches g (hrest g hg)

theorem settle_dropToken (use : FetchUse) (n : ℕ) :
    ClientPage.settle { p.drop n with accessToken := none } use none =
      (ClientPage.drop { p with accessToken := none } n).settle use none := by
  rfl

theorem settleAnswer (h : p.Sound algorithm sign) {n : ℕ} {f : ProfileFetch}
    (hf : p.fetches[n]? = some f) {answer : Except Error Profile}
    (hanswer : f.answer = some answer) (path : String) :
    ((p.drop n).settleAnswer algorithm sign f.use path answer).Sound algorithm sign := by
  cases answer with
  | ok profile => exact h.settle hf (h.answered f (List.mem_of_getElem? hf) profile hanswer)
  | error e =>
    simp only [ClientPage.settleAnswer]
    split
    · rw [settle_dropToken]
      exact (h.dropToken.settle hf (brings_none f)).redirected path
    · exact h.settle hf (brings_none f)

theorem serve (h : p.Sound algorithm sign) {n : ℕ} {token : Option Claims} {use : FetchUse}
    (hf : p.fetches[n]? = some ⟨token, use, none⟩) {answer : Except Error Profile}
    (hanswer : ∀ profile, answer = .ok profile → ∃ c ∈ token, profile.id = c.userId) :
    ClientPage.Sound algorithm sign
      { p with fetches := p.fetches.set n ⟨token, use, some answer⟩ } := by
  obtain ⟨claims, stored, waits, owned, answered⟩ := h
  obtain ⟨hn, hget⟩ := List.getElem?_eq_some_iff.mp hf
  refine ⟨claims, stored, ?_, fun c hc => ⟨(owned c hc).1, (owned c hc).2, ?_⟩, ?_⟩
  · rw [← waits, List.countP_set hn, hget]
    have hpos : use = .restore →
        0 < p.fetches.countP (fun f => f.use = .restore) := by
      intro huse
      refine List.countP_pos_iff.mpr ⟨_, List.getElem_mem hn, ?_⟩
      rw [hget]
      exact decide_eq_true huse
    by_cases huse : use = .restore
    · have hcount := hpos huse
      simp only [huse, decide_true, if_true]
      omega
    · simp only [huse, decide_false, Bool.false_eq_true, if_false, Nat.sub_zero, Nat.add_zero]
  · intro g hg x hx
    rcases List.mem_or_eq_of_mem_set hg with hg | rfl
    · exact (owned c hc).fetches g hg x hx
    · exact (owned c hc).fetches _ (List.mem_of_getElem? hf) x hx
  · intro g hg profile hprofile
    rcases List.mem_or_eq_of_mem_set hg with hg | rfl
    · exact answered g hg profile hprofile
    · intro x hx
      obtain rfl := Option.some.inj hx
      exact hanswer profile (Option.some.inj hprofile)

end ClientPage.Sound

/-! ### The answers of the server -/

/-- Each cached profile is stored under its own id. -/
def ProfileWorld.Keyed (w : ProfileWorld) : Prop :=
  ∀ k profile, w.cache k = some profile → profile.id = k

theorem ProfileWorld.Keyed.step {w : ProfileWorld} (h : w.Keyed) (e : ProfileEvent) :
    (w.step ext e).Keyed := by
  cases e with
  | get token =>
    intro k profile hk
    rcases getProfile_cache w token with hsame | ⟨u, -, hput⟩
    · exact h k profile (by rw [← hsame]; exact hk)
    · have hk' : put w.cache u.id u.profile k = some profile := by
        rw [← hput]
        exact hk
      rw [put_apply] at hk'
      split at hk'
      · rename_i heq
        rw [← Option.some.inj hk', heq]
        rfl
      · exact h k profile hk'
  | call c => exact fun k profile hk => h k profile (profileCacheAfter_sub ext w c k profile hk)
  | expire userId => exact fun k profile hk => h k profile (drop_sub w.cache userId k profile hk)

theorem ProfileWorld.Keyed.answer {w : ProfileWorld} (h : w.Keyed) {f : ProfileFetch}
    {accepted : Bool} {profile : Profile}
    (hanswer : (getProfile w (f.bearer accepted)).1 = .ok profile) :
    ∃ c ∈ f.token, profile.id = c.userId := by
  unfold getProfile at hanswer
  cases hcaller : getCurrentUser w.store (f.bearer accepted) with
  | error e =>
    simp only [hcaller] at hanswer
    cases hanswer
  | ok user =>
    obtain ⟨userId, hbearer, hget⟩ := getCurrentUser_eq_ok.mp hcaller
    have hid : user.id = userId := ((Table.get_eq_some _).mp hget).2
    have hprofile : profile.id = user.id := by
      cases hv : w.cache user.id with
      | none =>
        simp only [hcaller, hv] at hanswer
        exact (congrArg Profile.id (Except.ok.inj hanswer)).symm
      | some cached =>
        simp only [hcaller, hv] at hanswer
        rw [← Except.ok.inj hanswer]
        exact h user.id cached hv
    cases accepted with
    | false => cases hbearer
    | true =>
      obtain ⟨c, hc, hcid⟩ := Option.map_eq_some_iff.mp hbearer
      exact ⟨c, hc, by rw [hprofile, hid, hcid]⟩

/-! ### Runs -/

structure ClientWorld.Sound (w : ClientWorld) : Prop where
  keyed : w.server.Keyed
  page : w.page.Sound algorithm sign

section

variable {ext algorithm sign}

theorem ClientWorld.Sound.step {w : ClientWorld} (h : w.Sound algorithm sign) (e : ClientEvent)
    (hclean : SignsInCleanly w e) : (w.step ext algorithm sign e).Sound algorithm sign := by
  obtain ⟨keyed, page⟩ := h
  cases e with
  | server e => exact ⟨keyed.step ext e, page⟩
  | load => exact ⟨keyed, page.load⟩
  | signIn c =>
    obtain ⟨hquiet, hprofile, hcache⟩ := hclean
    exact ⟨keyed, page.loginUser (List.isEmpty_iff.mp hquiet) hprofile hcache⟩
  | menuLogout => exact ⟨keyed, page.logout⟩
  | panelLogout => exact ⟨keyed, page.dropToken⟩
  | refresh => exact ⟨keyed, page.send nofun⟩
  | serve n accepted =>
    simp only [ClientWorld.step]
    split
    · rename_i token use hf
      exact ⟨keyed.step ext (.get _),
        page.serve hf fun profile hprofile => keyed.answer hprofile⟩
    · exact ⟨keyed, page⟩
  | arrives n path =>
    simp only [ClientWorld.step]
    split
    · rename_i token use answer hf
      exact ⟨keyed, page.settleAnswer hf rfl path⟩
    · exact ⟨keyed, page⟩
  | fails n =>
    simp only [ClientWorld.step]
    split
    · rename_i f hf
      exact ⟨keyed, page.settle hf (ClientPage.Sound.brings_none f)⟩
    · exact ⟨keyed, page⟩
  | unauthorized path => exact ⟨keyed, page.dropToken.redirected path⟩

theorem readToken_eq (c : Claims) :
    ClientPage.readToken algorithm sign c = some (.dict c.payload) :=
  decodeJwt_jwtEncode algorithm sign c

theorem field_append (fields fields' : List (String × Loaded)) (name : String) :
    (Value.dict (fields ++ fields')).field name =
      ((Value.dict fields').field name).or ((Value.dict fields).field name) := by
  simp only [Value.field, List.reverse_append, List.lookup_append]

theorem userId_payload (c : Claims) :
    (Value.dict c.payload).field "user_id" = some (.int c.userId) := by
  cases hj : c.jti with
  | none => simp [Value.field, Claims.payload, hj, List.lookup_cons]
  | some n => simp [Value.field, Claims.payload, hj, List.lookup_cons]

theorem ClientPage.Sound.showsOwn {p : ClientPage} (h : p.Sound algorithm sign) :
    p.ShowsOwn := by
  unfold ClientPage.ShowsOwn
  cases htoken : p.token with
  | none => simp only [ClientPage.user, h.claims, htoken, Option.bind_none, Option.map_none]
  | some c =>
    have huser : p.user = some (.dict (c.payload ++ p.profile.elim [] Profile.payload)) := by
      simp only [ClientPage.user, h.claims, htoken, Option.bind_some, readToken_eq,
        Option.map_some, objectSpread]
    refine ⟨_, huser, ?_, (h.owned c htoken).profile, ?_⟩
    · rw [field_append, userId_payload]
      cases p.profile with
      | none => rfl
      | some profile => rfl
    · rw [ClientPage.role, huser, Option.bind_some, payloadRole, field_append, role_payload]
      cases p.profile with
      | none => rfl
      | some profile => rfl

theorem ClientPage.Sound.isWaiting {p : ClientPage} (h : p.Sound algorithm sign) : p.Waits := by
  have hpos : (∃ f ∈ p.fetches, f.use = .restore) ↔ 0 < p.isLoading.toNat := by
    rw [← h.waits, List.countP_pos_iff]
    simp only [decide_eq_true_eq]
  rw [ClientPage.Waits, hpos]
  cases p.isLoading <;> decide

theorem ClientPage.ShowsOwn.opensByRole {p : ClientPage} (h : p.ShowsOwn) : p.OpensByRole := by
  intro roles hopen
  unfold ClientPage.privateRoute at hopen
  unfold ClientPage.ShowsOwn at h
  cases htoken : p.token with
  | none =>
    simp only [htoken, if_true] at hopen
    split at hopen <;> cases hopen
  | some c =>
    simp only [htoken] at h
    obtain ⟨user, -, -, -, hrole⟩ := h
    simp only [htoken, reduceCtorEq, if_false] at hopen
    split at hopen
    · cases hopen
    · split at hopen
      · rename_i hin
        obtain ⟨role, hrole', hmem⟩ := hin
        rw [hrole] at hrole'
        rw [← Option.some.inj hrole'] at hmem
        exact ⟨c, rfl, hmem⟩
      · cases hopen

end

/-- As long as a sign-in finds nothing of another account, whatever the requests
meet and in whatever order their answers come. -/
theorem page_shows_its_account (s : Store) (es : List ClientEvent)
    (hclean : Along (ClientWorld.step ext algorithm sign) SignsInCleanly (.start s) es) :
    Always (ClientWorld.step ext algorithm sign)
      (fun w => w.page.ShowsOwn ∧ w.page.OpensByRole ∧ w.page.Waits) (.start s) es := by
  have hstart : (ClientWorld.start s).Sound algorithm sign :=
    ⟨fun _ _ hnone => (nomatch hnone), ClientPage.Sound.start⟩
  have hsound : Always (ClientWorld.step ext algorithm sign) (ClientWorld.Sound algorithm sign)
      (.start s) es := always_of_along (fun _ e h hc => h.step e hc) hstart hclean
  exact hsound.mono fun w h =>
    ⟨h.page.showsOwn, h.page.showsOwn.opensByRole, h.page.isWaiting⟩

def sampleClaims (userId : ℤ) (role : Role) (hotelId : Option ℤ) : Claims :=
  ⟨⟨userId, role, hotelId⟩, .access, some 7, 900⟩

/-- A guest signs in and out by the menu, then an admin, whose session expires. -/
def guestThenAdmin : List ClientEvent :=
  [.load, .signIn (sampleClaims 1 .guest none), .serve 0 true, .arrives 0 "/login", .menuLogout,
    .signIn (sampleClaims 3 .hotelAdmin (some 1)), .serve 0 true, .arrives 0 "/login", .load,
    .serve 0 false, .arrives 0 "/admin/dashboard"]

theorem page_shows_its_account_sample :
    Always (ClientWorld.step sampleExt "HS256" fun _ => [])
      (fun w => w.page.ShowsOwn ∧ w.page.OpensByRole ∧ w.page.Waits) (.start sampleStore)
      guestThenAdmin :=
  page_shows_its_account sampleExt "HS256" (fun _ => []) sampleStore guestThenAdmin
    (by decide +kernel)

end

end HotelMs
