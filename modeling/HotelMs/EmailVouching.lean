import HotelMs.UserMoves

/-!
# What the verified flag says

A verified account should have an address that somebody vouched for: the sign-in
provider when the account was created, or a redeemed token that had been sent
there. Which address a token was sent to, and what was vouched for, is not in
the database: the model keeps it beside the store.
-/

namespace HotelMs

open Tables Runs

/-- `sentTo` is the address a verification token went to, by the id of its row.
`asserted` and `redeemed` are pairs of an account and an address. -/
structure MailWorld where
  store : Store
  sentTo : ℤ → String
  asserted : List (ℤ × String)
  redeemed : List (ℤ × String)

/-- The account that a sign-in creates, with the address of the provider. -/
def assertedBy (ext : Ext) (s : Store) (c : Call) : Option (ℤ × String) :=
  match c.request with
  | .auth r => do
    let email ← providerEmail ext r
    let created ← (handle ext s c).users.get s.users.next
    return (created.id, email)
  | _ => none

/-- The token row that `resend_verification` writes, and the address the mail
with it goes to. -/
def mailedBy (ext : Ext) (s : Store) (c : Call) : Option (ℤ × String) :=
  match c.request with
  | .auth (.resendVerification email) => do
    let record ← (handle ext s c).emailVerifications.get s.emailVerifications.next
    let user ← getUserByEmail s (ext.lower email)
    return (record.id, user.email)
  | _ => none

/-- The account and the token row that `verify_email` finds. -/
def redeemedBy (s : Store) (c : Call) : Option (ℤ × ℤ) :=
  match c.request with
  | .auth (.verifyEmail secret) =>
    (liveToken s.emailVerifications c.env.now secret).map fun record => (record.userId, record.id)
  | _ => none

def MailWorld.step (ext : Ext) (w : MailWorld) (c : Call) : MailWorld where
  store := handle ext w.store c
  sentTo :=
    match mailedBy ext w.store c with
    | some (record, address) => fun k => if k = record then address else w.sentTo k
    | none => w.sentTo
  asserted := (assertedBy ext w.store c).toList ++ w.asserted
  redeemed := ((redeemedBy w.store c).map fun r => (r.1, w.sentTo r.2)).toList ++ w.redeemed

/-- `own`: a redeemed token counts for the account that it was issued to only. -/
def MailWorld.VouchedFor (own : Bool) (w : MailWorld) (userId : ℤ) (address : String) : Prop :=
  (userId, address) ∈ w.asserted ∨
    ∃ k, (own = true → k = userId) ∧ (k, address) ∈ w.redeemed

def MailWorld.FlagVouches (own : Bool) (w : MailWorld) : Prop :=
  ∀ k u, w.store.users.get k = some u → u.isEmailVerified = true → w.VouchedFor own k u.email

/-- A change of a verified account leaves its address, or moves it to one already
vouched for. A token is redeemed while the account still has the address that
the token was sent to, or one already vouched for. -/
def KeepsVouching (ext : Ext) (own : Bool) (w : MailWorld) (c : Call) : Prop :=
  match c.request with
  | .guest (.updateProfile data) => ∀ u, Updates ext w.store c.token data u →
      u.isEmailVerified = true →
        (data.apply ext u).email = u.email ∨ w.VouchedFor own u.id (data.apply ext u).email
  | .user (.edit userId data) => ∀ u role, Edits ext w.store c.token userId data u role →
      u.isEmailVerified = true → (data.apply ext role u).email = u.email ∨
        w.VouchedFor own userId (data.apply ext role u).email
  | .auth (.verifyEmail secret) => ∀ record u,
      liveToken w.store.emailVerifications c.env.now secret = some record →
        w.store.users.get record.userId = some u →
          w.sentTo record.id = u.email ∨ w.VouchedFor own record.userId u.email
  | _ => True

/-! ### One request -/

section

variable {ext : Ext} {own : Bool} {w : MailWorld} {c : Call}

theorem MailWorld.VouchedFor.step {k : ℤ} {address : String} (h : w.VouchedFor own k address) :
    (w.step ext c).VouchedFor own k address := by
  rcases h with hasserted | ⟨j, hj, hredeemed⟩
  · exact Or.inl (List.mem_append_right _ hasserted)
  · exact Or.inr ⟨j, hj, List.mem_append_right _ hredeemed⟩

theorem vouched_update {k j : ℤ} {f : User → User} {u' : User} (h : w.FlagVouches own)
    (hu' : (w.store.users.update j f).get k = some u') (hf : ∀ u, (f u).id = u.id)
    (hflag : u'.isEmailVerified = true)
    (hrow : ∀ u, w.store.users.get j = some u → (f u).isEmailVerified = true →
      (w.step ext c).VouchedFor own j (f u).email) :
    (w.step ext c).VouchedFor own k u'.email := by
  obtain ⟨u, hu, rfl⟩ := get_update_user hf hu'
  by_cases hk : k = j
  · subst hk
    rw [if_pos rfl] at hflag ⊢
    exact hrow u hu hflag
  · rw [if_neg hk] at hflag ⊢
    exact (h k u hu hflag).step

theorem vouched_quiet {k j : ℤ} {f : User → User} {u' : User} (h : w.FlagVouches own)
    (hprofile : ∀ u, (f u).profile = u.profile)
    (hkeep : ∀ u, (f u).isEmailVerified = u.isEmailVerified)
    (hu' : (w.store.users.update j f).get k = some u') (hflag : u'.isEmailVerified = true) :
    (w.step ext c).VouchedFor own k u'.email := by
  refine vouched_update h hu' (fun u => congrArg Profile.id (hprofile u)) hflag fun u hu hv => ?_
  have hemail : (f u).email = u.email := congrArg Profile.email (hprofile u)
  rw [hemail]
  exact (h j u hu ((hkeep u).symm.trans hv)).step

theorem assertedBy_insert {env : Env} {token : Bearer} {r : PublicRequest} {s : Store} {u : User}
    (hu : (handle ext s ⟨env, token, .auth r⟩).users = s.users.insert u)
    (hid : u.id = s.users.next) (hemail : providerEmail ext r = some u.email) :
    assertedBy ext s ⟨env, token, .auth r⟩ = some (u.id, u.email) := by
  have hrow : Keyed.stamp s.users.next u = u := stamp_eq_self hid
  simp only [assertedBy, hemail, hu, Table.get_insert_next, hrow, Option.bind_eq_bind,
    Option.bind_some, Option.pure_def]

/-- An account that joins unverified has no flag to vouch for. -/
theorem vouched_joined {k : ℤ} {u u' : User} (h : w.FlagVouches own)
    (hu' : (w.store.users.insert u).get k = some u') (hfalse : u.isEmailVerified = false)
    (hflag : u'.isEmailVerified = true) : (w.step ext c).VouchedFor own k u'.email := by
  have hk : k ≠ w.store.users.next := by
    rintro rfl
    rw [Table.get_insert_next] at hu'
    rw [← Option.some.inj hu'] at hflag
    exact absurd (hfalse.symm.trans hflag) (by decide)
  exact (h k u' (get_insert_user hk hu') hflag).step

theorem vouched_asserted {env : Env} {token : Bearer} {r : PublicRequest} {k : ℤ} {u u' : User}
    (h : w.FlagVouches own) (hid : u.id = w.store.users.next)
    (hemail : providerEmail ext r = some u.email)
    (husers : (handle ext w.store ⟨env, token, .auth r⟩).users = w.store.users.insert u)
    (hu' : (w.store.users.insert u).get k = some u') (hflag : u'.isEmailVerified = true) :
    (w.step ext ⟨env, token, .auth r⟩).VouchedFor own k u'.email := by
  by_cases hk : k = w.store.users.next
  · rw [hk, Table.get_insert_next, stamp_eq_self hid] at hu'
    obtain rfl := Option.some.inj hu'
    refine Or.inl (List.mem_append_left _ ?_)
    rw [assertedBy_insert husers hid hemail, hk, ← hid]
    exact List.mem_singleton.mpr rfl
  · exact (h k u' (get_insert_user hk hu') hflag).step

/-- A change of a verified account to its old address or to one vouched for. -/
theorem vouched_moved {j : ℤ} {u : User} {address : String} (h : w.FlagVouches own)
    (hu : w.store.users.get j = some u) (hv : u.isEmailVerified = true)
    (hkeeps : address = u.email ∨ w.VouchedFor own j address) :
    (w.step ext c).VouchedFor own j address := by
  rcases hkeeps with rfl | hold
  · exact (h j u hu hv).step
  · exact hold.step

theorem vouched_redeemed {env : Env} {token : Bearer} {secret : String} {record : OneTimeToken}
    {address : String} (hlive : liveToken w.store.emailVerifications env.now secret = some record)
    (hkeeps : w.sentTo record.id = address ∨ w.VouchedFor own record.userId address) :
    (w.step ext ⟨env, token, .auth (.verifyEmail secret)⟩).VouchedFor own record.userId
      address := by
  rcases hkeeps with hsent | hold
  · refine Or.inr ⟨record.userId, fun _ => rfl, List.mem_append_left _ ?_⟩
    simp only [redeemedBy, hlive, Option.map_some, Option.toList_some, hsent, List.mem_singleton]
  · exact hold.step

theorem flagVouches_step (h : w.FlagVouches own) (hkeeps : KeepsVouching ext own w c) :
    (w.step ext c).FlagVouches own := by
  intro k u' hu' hflag
  have hmove := handle_userMove ext w.store c
  obtain ⟨env, token, r⟩ := c
  replace hu' : (handle ext w.store ⟨env, token, r⟩).users.get k = some u' := hu'
  generalize ht : (handle ext w.store ⟨env, token, r⟩).users = t at hmove hu'
  cases hmove with
  | same => exact (h k u' hu' hflag).step
  | quiet _ j f hprofile hkeep => exact vouched_quiet h hprofile hkeep hu' hflag
  | joined _ u hid hfalse => exact vouched_joined h hu' hfalse hflag
  | asserted r u hid hemail => exact vouched_asserted h hid hemail ht hu' hflag
  | synced reply u url hsync hok =>
    exact vouched_update h hu' (fun _ => rfl) hflag fun x hx hv => (h u.id x hx hv).step
  | verified secret record hlive =>
    refine vouched_update h hu' (fun _ => rfl) hflag fun x hx _ => ?_
    exact vouched_redeemed hlive (hkeeps record x hlive hx)
  | updated data u hup =>
    refine vouched_update h hu' (fun _ => rfl) hflag fun x hx hv => ?_
    obtain rfl := Option.some.inj ((get_of_getCurrentUser hup.caller).symm.trans hx)
    exact vouched_moved h hx hv (hkeeps u hup hv)
  | photo r u photoUrl hok =>
    exact vouched_update h hu' (fun _ => rfl) hflag fun x hx hv => (h u.id x hx hv).step
  | edited userId data u role hedits =>
    refine vouched_update h hu' (fun _ => rfl) hflag fun x hx hv => ?_
    obtain rfl := Option.some.inj (hedits.target.symm.trans hx)
    exact vouched_moved h hx hv (hkeeps u role hedits hv)
  | removed userId j =>
    rw [Table.get_delete] at hu'
    split at hu'
    · cases hu'
    · exact (h k u' hu' hflag).step

/-- What a step that rewrote one row left vouched for. -/
theorem vouched_after_update {j : ℤ} {f : User → User} {u : User}
    (h : (w.step ext c).FlagVouches own) (hf : ∀ x, (f x).id = x.id)
    (hu : w.store.users.get j = some u) (hv : (f u).isEmailVerified = true)
    (husers : (handle ext w.store c).users = w.store.users.update j f) :
    (w.step ext c).VouchedFor own j (f u).email := by
  refine h j (f u) ?_ hv
  show (handle ext w.store c).users.get j = some (f u)
  rw [husers]
  exact get_update_of_get (hf u) hu

theorem keepsVouching_of_step (h : (w.step ext c).FlagVouches own) :
    KeepsVouching ext own w c := by
  obtain ⟨env, token, r⟩ := c
  unfold KeepsVouching
  split
  next data hr =>
    cases hr
    intro u hup hv
    refine Or.inr (vouched_after_update h (fun _ => rfl) (get_of_getCurrentUser hup.caller) hv ?_)
    show (committed w.store (updateProfile ext w.store token data)).users = _
    rw [updateProfile_eq_ok.mpr ⟨u, hup, rfl⟩]
    rfl
  next userId data hr =>
    cases hr
    intro u role hedits hv
    refine Or.inr (vouched_after_update h (fun _ => rfl) hedits.target hv ?_)
    show (committed w.store (editUser ext w.store token userId data)).users = _
    rw [editUser_eq_ok.mpr ⟨u, role, hedits, rfl⟩]
    rfl
  next secret hr =>
    cases hr
    intro record u hlive hu
    have hvouched : (w.step ext ⟨env, token, .auth (.verifyEmail secret)⟩).VouchedFor own
        record.userId u.email := by
      refine vouched_after_update (f := fun x => { x with isEmailVerified := true }) h
        (fun _ => rfl) hu rfl ?_
      show (committed w.store (verifyEmail env w.store secret)).users = _
      rw [verifyEmail_eq_ok.mpr ⟨record, hlive, rfl⟩]
      rfl
    rcases hvouched with hasserted | ⟨k, hk, hredeemed⟩
    · exact Or.inr (Or.inl hasserted)
    · rcases List.mem_append.mp hredeemed with hnow | hold
      · simp only [redeemedBy, hlive, Option.map_some, Option.toList_some,
          List.mem_singleton, Prod.mk.injEq] at hnow
        exact Or.inl hnow.2.symm
      · exact Or.inr (Or.inr ⟨k, hk, hold⟩)
  next => trivial

end

/-! ### Runs -/

/-- From a state where every verified flag vouches for the address of its
account, that stays so throughout a run exactly if each request is within the
condition. -/
theorem verified_vouches_iff (ext : Ext) (own : Bool) (w : MailWorld) (cs : List Call)
    (h : w.FlagVouches own) :
    Always (MailWorld.step ext) (MailWorld.FlagVouches own) w cs ↔
      Along (MailWorld.step ext) (KeepsVouching ext own) w cs :=
  always_iff_along (J := fun _ => True) (Q := fun _ _ => True) (fun _ _ _ => trivial)
    (fun _ _ _ _ hI => ⟨keepsVouching_of_step, flagVouches_step hI⟩)
    (along_of_forall fun _ _ _ => trivial) trivial h

def unverifiedWorld : MailWorld := ⟨sampleStore, fun _ => "", [], []⟩

theorem unverifiedWorld_flagVouches (own : Bool) : unverifiedWorld.FlagVouches own := by
  intro k u hu hflag
  have hrows : ∀ v ∈ sampleStore.users.rows, v.isEmailVerified = false := by decide +kernel
  rw [hrows u ((Table.get_eq_some _).mp hu).1] at hflag
  cases hflag

def verifyThenMove : List Call :=
  [⟨sampleEnv "txn_1", none, .auth (.resendVerification "a@x.org")⟩,
    ⟨sampleEnv "txn_1", none, .auth (.verifyEmail "token")⟩,
    ⟨sampleEnv "txn_1", some 1, .guest (.updateProfile ⟨none, some "ann@y.org", none⟩)⟩]

theorem verified_vouches_move :
    Always (MailWorld.step sampleExt) (MailWorld.FlagVouches true) unverifiedWorld verifyThenMove ↔
      Along (MailWorld.step sampleExt) (KeepsVouching sampleExt true) unverifiedWorld
        verifyThenMove :=
  verified_vouches_iff sampleExt true unverifiedWorld verifyThenMove
    (unverifiedWorld_flagVouches true)

theorem moved_address_not_vouched : unverifiedWorld.FlagVouches false ∧
    ¬Always (MailWorld.step sampleExt) (MailWorld.FlagVouches false) unverifiedWorld
      verifyThenMove := by
  refine ⟨unverifiedWorld_flagVouches false, fun h => ?_⟩
  obtain ⟨_, _, _, hlast⟩ := h
  have hrow : ((run (MailWorld.step sampleExt) unverifiedWorld verifyThenMove).store.users.get
      1).any (fun u => u.isEmailVerified && u.email == "ann@y.org") = true := by decide +kernel
  obtain ⟨u, hu, hmoved⟩ := (Option.any_eq_true _ _).mp hrow
  obtain ⟨hflag, hemail⟩ := Bool.and_eq_true_iff.mp hmoved
  have hvouched := hlast 1 u hu hflag
  rw [eq_of_beq hemail] at hvouched
  have hasserted : (run (MailWorld.step sampleExt) unverifiedWorld
      verifyThenMove).asserted = [] := by
    decide +kernel
  have hredeemed : (run (MailWorld.step sampleExt) unverifiedWorld verifyThenMove).redeemed =
      [(1, "a@x.org")] := by decide +kernel
  rcases hvouched with hin | ⟨k, _, hin⟩
  · exact absurd (hasserted ▸ hin) (by simp)
  · exact absurd (hredeemed ▸ hin) (by simp)

end HotelMs
