import HotelMs.UserMoves
import HotelMs.Lib.ReadThrough

/-!
# The profile cache

`get_profile` reads through `user:profile:<id>`. Every writer of a profile drops
the key but `edit_user`. Entries expire at any time. The value is a dictionary
of texts, numbers and nulls, which JSON gives back as it was.
-/

namespace HotelMs

open Tables ReadThrough Runs

structure ProfileWorld where
  store : Store
  cache : Cache ℤ Profile

inductive ProfileEvent
  | get (token : Bearer)
  | call (c : Call)
  | expire (userId : ℤ)

def getProfile (w : ProfileWorld) (token : Bearer) : Except Error Profile × Cache ℤ Profile :=
  match getCurrentUser w.store token with
  | .error e => (.error e, w.cache)
  | .ok user =>
    match w.cache user.id with
    | some cached => (.ok cached, w.cache)
    | none => (.ok user.profile, put w.cache user.id user.profile)

/-- The key that the endpoint deletes, after its commit. -/
def profileDropped (ext : Ext) (s : Store) (c : Call) : Option ℤ :=
  match c.request with
  | .guest (.updateProfile data) => (updateProfile ext s c.token data).toOption.map fun r => r.1.id
  | .photo r => (photoReply s c.token r).toOption.map fun r => r.1.id
  | .auth (.googleLogin reply) => do
    let _ ← (googleLogin ext c.env s reply).toOption
    let synced ← googleSync ext s reply
    return synced.1.id
  | _ => none

def profileCacheAfter (ext : Ext) (w : ProfileWorld) (c : Call) : Cache ℤ Profile :=
  match profileDropped ext w.store c with
  | none => w.cache
  | some k => drop w.cache k

def ProfileWorld.step (ext : Ext) (w : ProfileWorld) : ProfileEvent → ProfileWorld
  | .get token => { w with cache := (getProfile w token).2 }
  | .call c => ⟨handle ext w.store c, profileCacheAfter ext w c⟩
  | .expire userId => { w with cache := drop w.cache userId }

def ProfileWorld.start (s : Store) : ProfileWorld := ⟨s, fun _ => none⟩

/-- Whoever asks for the own profile gets the one in the row. -/
def ProfileWorld.Current (w : ProfileWorld) : Prop :=
  ∀ token, (getProfile w token).1 = (getCurrentUser w.store token).map User.profile

/-- An edit by an admin that goes through leaves the profile alone, or the user
has none cached. -/
def KeepsProfile (ext : Ext) (w : ProfileWorld) : ProfileEvent → Prop
  | .call ⟨_, token, .user (.edit userId data)⟩ => ∀ u role,
      Edits ext w.store token userId data u role → w.cache userId = none ∨
        (data.apply ext role u).profile = u.profile
  | _ => True

/-! ### What is cached -/

def ShowsRow (s : Store) (k : ℤ) (v : Profile) : Prop := ∀ u, s.users.get k = some u → v = u.profile

/-- Keys are of ids given out so far. -/
def ProfileWorld.KeysBelow (w : ProfileWorld) : Prop :=
  ∀ k v, w.cache k = some v → k < w.store.users.next

theorem current_iff_coherent {w : ProfileWorld} :
    w.Current ↔ Coherent ShowsRow w.store w.cache := by
  constructor
  · intro h k v hv u hu
    have hkey : u.id = k := ((Table.get_eq_some _).mp hu).2
    have hcaller : getCurrentUser w.store (some k) = .ok u :=
      getCurrentUser_eq_ok.mpr ⟨k, rfl, hu⟩
    have hk := h (some k)
    unfold getProfile at hk
    simp only [hcaller, hkey, hv, Except.map] at hk
    exact Except.ok.inj hk
  · intro h token
    unfold getProfile
    cases hcaller : getCurrentUser w.store token with
    | error e => rfl
    | ok user =>
      cases hv : w.cache user.id with
      | none => simp only [hv, Except.map]
      | some cached =>
        simp only [hv, Except.map]
        rw [h user.id cached hv user (get_of_getCurrentUser hcaller)]

theorem getProfile_cache (w : ProfileWorld) (token : Bearer) :
    (getProfile w token).2 = w.cache ∨ ∃ u, w.store.users.get u.id = some u ∧
      (getProfile w token).2 = put w.cache u.id u.profile := by
  unfold getProfile
  cases hcaller : getCurrentUser w.store token with
  | error e => exact Or.inl rfl
  | ok user =>
    cases hv : w.cache user.id with
    | some cached => exact Or.inl (by simp only [hv])
    | none => exact Or.inr ⟨user, get_of_getCurrentUser hcaller, by simp only [hv]⟩

theorem profileCacheAfter_sub (ext : Ext) (w : ProfileWorld) (c : Call) :
    Sub (profileCacheAfter ext w c) w.cache := by
  unfold profileCacheAfter
  split
  · exact .refl _
  next k _ => exact drop_sub _ k

theorem keysBelow_step (ext : Ext) (w : ProfileWorld) (e : ProfileEvent) (h : w.KeysBelow) :
    (w.step ext e).KeysBelow := by
  cases e with
  | get token =>
    intro k v hv
    rcases getProfile_cache w token with hsame | ⟨u, hu, hput⟩
    · exact h k v (by rw [← hsame]; exact hv)
    · have hv' : put w.cache u.id u.profile k = some v := by
        rw [← hput]
        exact hv
      rw [put_apply] at hv'
      split at hv'
      next hk =>
        have hbelow := w.store.users.below u ((Table.get_eq_some _).mp hu).1
        rw [hk]
        exact hbelow
      · exact h k v hv'
  | call c =>
    intro k v hv
    have hold := h k v (profileCacheAfter_sub ext w c k v hv)
    exact hold.trans_le (handle_userWrite ext w.store c).next_le
  | expire userId =>
    intro k v hv
    exact h k v (drop_sub _ userId k v hv)

/-! ### One request -/

section

variable {ext : Ext} {w : ProfileWorld} {c : Call}

theorem not_cached_of_dropped {k : ℤ} (h : profileDropped ext w.store c = some k) :
    profileCacheAfter ext w c k = none := by
  unfold profileCacheAfter
  rw [h]
  exact drop_eq_none.mpr (Or.inl rfl)

theorem showsRow_update {s : Store} {j k : ℤ} {f : User → User} {v : Profile} {u' : User}
    (h : ShowsRow s k v) (hu' : (s.users.update j f).get k = some u')
    (hf : ∀ u, (f u).id = u.id)
    (hk : k = j → ∀ u, s.users.get k = some u → (f u).profile = u.profile) : v = u'.profile := by
  obtain ⟨u, hu, rfl⟩ := get_update_user hf hu'
  rw [h u hu]
  split
  next hkj => exact (hk hkj u hu).symm
  next => rfl

/-- Every request but an edit by an admin keeps the cached profiles right. -/
theorem call_keeps (hkeys : w.KeysBelow) (h : Coherent ShowsRow w.store w.cache)
    (hedit : ∀ userId data, c.request ≠ .user (.edit userId data)) :
    Coherent ShowsRow (handle ext w.store c) (profileCacheAfter ext w c) := by
  intro k v hv u' hu'
  have hold := profileCacheAfter_sub ext w c k v hv
  have hshows := h k v hold
  have hnext : k ≠ w.store.users.next := (hkeys k v hold).ne
  have hkept : ∀ j, profileDropped ext w.store c = some j → k ≠ j := by
    intro j hj hk
    rw [hk, not_cached_of_dropped hj] at hv
    cases hv
  have hmove := handle_userMove ext w.store c
  obtain ⟨env, token, r⟩ := c
  generalize (handle ext w.store ⟨env, token, r⟩).users = t at hmove hu'
  cases hmove with
  | same => exact hshows u' hu'
  | quiet _ j f hprofile hflag =>
    exact showsRow_update hshows hu' (fun u => congrArg Profile.id (hprofile u))
      fun _ u _ => hprofile u
  | joined _ u _ _ => exact hshows u' (get_insert_user hnext hu')
  | asserted r u _ _ => exact hshows u' (get_insert_user hnext hu')
  | synced reply u url hsync hok =>
    obtain ⟨a, ha⟩ := hok
    refine showsRow_update hshows hu' (fun _ => rfl) fun hk => ?_
    refine absurd hk (hkept u.id ?_)
    simp only [profileDropped, ha, hsync, Except.toOption, Option.bind_eq_bind, Option.bind_some,
      Option.pure_def]
  | verified secret record hlive =>
    exact showsRow_update hshows hu' (fun _ => rfl) fun _ _ _ => rfl
  | updated data u hup =>
    refine showsRow_update hshows hu' (fun _ => rfl) fun hk => ?_
    refine absurd hk (hkept u.id ?_)
    simp only [profileDropped, updateProfile_eq_ok.mpr ⟨u, hup, rfl⟩, Except.toOption,
      Option.map_some, ProfileUpdate.apply]
  | photo r u photoUrl hok =>
    obtain ⟨a, ha, hid⟩ := hok
    refine showsRow_update hshows hu' (fun _ => rfl) fun hk => ?_
    refine absurd hk (hkept u.id ?_)
    simp only [profileDropped, ha, Except.toOption, Option.map_some, hid]
  | edited userId data u role _ => exact absurd rfl (hedit userId data)
  | removed userId j =>
    rw [Table.get_delete] at hu'
    split at hu'
    · cases hu'
    · exact hshows u' hu'

theorem edit_keeps_iff {env : Env} {token : Bearer} {userId : ℤ} {data : UserAdminUpdate}
    (h : Coherent ShowsRow w.store w.cache) :
    Coherent ShowsRow (handle ext w.store ⟨env, token, .user (.edit userId data)⟩) w.cache ↔
      KeepsProfile ext w (.call ⟨env, token, .user (.edit userId data)⟩) := by
  have hstore : handle ext w.store ⟨env, token, .user (.edit userId data)⟩ =
      committed w.store (editUser ext w.store token userId data) := rfl
  rw [hstore]
  cases hresult : editUser ext w.store token userId data with
  | error e =>
    refine iff_of_true h fun u role hedits => ?_
    rw [editUser_eq_ok.mpr ⟨u, role, hedits, rfl⟩] at hresult
    cases hresult
  | ok a =>
    obtain ⟨u, role, hedits, rfl⟩ := editUser_eq_ok.mp hresult
    have hget : (w.store.users.update userId (data.apply ext role)).get userId =
        some (data.apply ext role u) := get_update_of_get rfl hedits.target
    constructor
    · intro h' u' role' hedits'
      obtain rfl := Option.some.inj (hedits.target.symm.trans hedits'.target)
      obtain rfl := Except.ok.inj (hedits.label.symm.trans hedits'.label)
      cases hv : w.cache userId with
      | none => exact Or.inl rfl
      | some v =>
        refine Or.inr ?_
        rw [← h' userId v hv _ hget, h userId v hv u hedits.target]
    · intro hkeeps k v hv u' hu'
      refine showsRow_update (h k v hv) hu' (fun _ => rfl) fun hk x hx => ?_
      subst hk
      obtain rfl := Option.some.inj (hedits.target.symm.trans hx)
      rcases hkeeps u role hedits with hnone | hsame
      · rw [hv] at hnone
        cases hnone
      · exact hsame

theorem keepsProfile_of_not_edit (hedit : ∀ userId data, c.request ≠ .user (.edit userId data)) :
    KeepsProfile ext w (.call c) := by
  obtain ⟨env, token, r⟩ := c
  unfold KeepsProfile
  split
  next heq =>
    cases heq
    exact absurd rfl (hedit _ _)
  · trivial

theorem current_step_iff (e : ProfileEvent) (hkeys : w.KeysBelow) (h : w.Current) :
    (w.step ext e).Current ↔ KeepsProfile ext w e := by
  rw [current_iff_coherent] at h ⊢
  cases e with
  | get token =>
    refine iff_of_true ?_ trivial
    rcases getProfile_cache w token with hsame | ⟨u, hu, hput⟩
    · rw [ProfileWorld.step, hsame]
      exact h
    · rw [ProfileWorld.step, hput]
      refine h.put fun u' hu' => ?_
      rw [Option.some.inj (hu.symm.trans hu')]
  | expire userId => exact iff_of_true (h.of_sub (drop_sub _ userId)) trivial
  | call c =>
    by_cases hedit : ∃ userId data, c.request = .user (.edit userId data)
    · obtain ⟨userId, data, hr⟩ := hedit
      obtain ⟨env, token, r⟩ := c
      cases hr
      exact edit_keeps_iff h
    · have hno : ∀ userId data, c.request ≠ .user (.edit userId data) :=
        fun userId data hr => hedit ⟨userId, data, hr⟩
      exact iff_of_true (call_keeps hkeys h hno) (keepsProfile_of_not_edit hno)

end

/-! ### Runs -/

/-- In a run from a cold cache every profile that is asked for is the current one,
at every point, exactly if no edit by an admin changes a profile while it is
cached. -/
theorem profiles_current_iff (ext : Ext) (s : Store) (es : List ProfileEvent) :
    Always (ProfileWorld.step ext) ProfileWorld.Current (.start s) es ↔
      Along (ProfileWorld.step ext) (KeepsProfile ext) (.start s) es := by
  have hkeys : (ProfileWorld.start s).KeysBelow := fun _ _ hv => by cases hv
  have hcurrent : (ProfileWorld.start s).Current :=
    current_iff_coherent.mpr fun _ _ hv => by cases hv
  refine always_iff_along (J := ProfileWorld.KeysBelow) (Q := fun _ _ => True)
    (fun w e h => keysBelow_step ext w e h) (fun w e hj _ hI => current_step_iff e hj hI)
    (along_of_forall fun _ _ _ => trivial) hkeys hcurrent

/-- The admin corrects a name that the guest has just looked at. -/
def renameByAdmin : List ProfileEvent :=
  [.get (some 1), .call ⟨sampleEnv "txn_1", some 3, .user (.edit 1
    ⟨some "Ann", none, none, none, none, none, none, none, none⟩)⟩]

theorem renamed_guest_reads_old_name :
    ¬Always (ProfileWorld.step sampleExt) ProfileWorld.Current (.start sampleStore)
      renameByAdmin := by
  intro h
  obtain ⟨_, _, hlast⟩ := h
  have hname := congrArg (fun x => x.toOption.map Profile.fullName) (hlast (some 1))
  revert hname
  decide +kernel

end HotelMs
