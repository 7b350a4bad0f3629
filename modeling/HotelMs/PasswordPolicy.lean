import HotelMs.UserWrites
import HotelMs.Lib.Runs

/-!
# Which passwords get stored

Registration, password reset, password change and the admin's user creation each
store a hash, and each looks at the password in its own way. The password a hash
was computed from is not in the database: the model keeps it beside the store.
-/

namespace HotelMs

open Tables Runs

/-- The account whose hash the request replaces, and the password hashed. The
random passwords of the sign-in through a provider do not count. -/
def storedPassword (ext : Ext) (s : Store) (c : Call) : Option (ℤ × String) :=
  match c.request with
  | .auth (.register data) =>
    (registerUser ext c.env s data).toOption.map fun r => (r.1.id, data.password)
  | .auth (.resetPassword secret new) => do
    let _ ← (resetPassword ext c.env s secret new).toOption
    let record ← liveToken s.passwordResets c.env.now secret
    let user ← s.users.get record.userId
    return (user.id, new)
  | .guest (.changePassword data) => do
    let r ← (changePassword ext c.env s c.token data).toOption
    let user ← r.1
    return (user.id, data.newPassword)
  | .user (.add data) =>
    (addUser ext c.env s c.token data).toOption.map fun r => (r.1.id, data.password)
  | _ => none

/-- `origin` is the salt and the password of the hash of an account. -/
structure PasswordWorld where
  store : Store
  origin : ℤ → Option (String × String)

def PasswordWorld.step (ext : Ext) (w : PasswordWorld) (c : Call) : PasswordWorld where
  store := handle ext w.store c
  origin :=
    match storedPassword ext w.store c with
    | some (userId, password) => fun k =>
      if k = userId then some (c.env.salt, password) else w.origin k
    | none => w.origin

/-- Every hash with a known password is the hash of it, and the password is
strong enough. -/
def PasswordWorld.Strong (ext : Ext) (w : PasswordWorld) : Prop :=
  ∀ k u salt password, w.store.users.get k = some u → w.origin k = some (salt, password) →
    u.hashedPassword = ext.hashpw salt password ∧ validatePasswordStrength password = true

/-- A reset, a change or a user creation that goes through has a strong password. -/
def KeepsPolicy (ext : Ext) (s : Store) (c : Call) : Prop :=
  match c.request with
  | .auth (.resetPassword secret new) => ∀ record u, Resets c.env s secret new record →
      s.users.get record.userId = some u → validatePasswordStrength new = true
  | .guest (.changePassword data) => ∀ u, Repasses ext s c.token data u →
      validatePasswordStrength data.newPassword = true
  | .user (.add data) => ∀ caller role, Admits ext c.env s c.token data caller role →
      validatePasswordStrength data.password = true
  | _ => True

/-! ### One request -/

section

variable {ext : Ext} {s : Store} {c : Call}

theorem toOption_eq_some {α : Type} {x : Except Error α} {a : α} :
    x.toOption = some a ↔ x = .ok a := by
  cases x <;> simp [Except.toOption]

theorem storedPassword_reset {env : Env} {token : Bearer} {secret new : String} {k : ℤ}
    {password : String} :
    storedPassword ext s ⟨env, token, .auth (.resetPassword secret new)⟩ = some (k, password) ↔
      ∃ record u, Resets env s secret new record ∧ s.users.get record.userId = some u ∧
        u.id = k ∧ new = password := by
  simp only [storedPassword, Option.bind_eq_bind, Option.bind_eq_some_iff, toOption_eq_some,
    resetPassword_eq_ok, Option.pure_def, Option.some.injEq, Prod.mk.injEq]
  constructor
  · rintro ⟨_, ⟨record, hresets, _⟩, record', hlive, u, hu, hid, hnew⟩
    obtain rfl := Option.some.inj (hresets.live.symm.trans hlive)
    exact ⟨record, u, hresets, hu, hid, hnew⟩
  · rintro ⟨record, u, hresets, hu, hid, hnew⟩
    exact ⟨_, ⟨record, hresets, rfl⟩, record, hresets.live, u, hu, hid, hnew⟩

theorem storedPassword_change {env : Env} {token : Bearer} {data : PasswordChange} {k : ℤ}
    {password : String} :
    storedPassword ext s ⟨env, token, .guest (.changePassword data)⟩ = some (k, password) ↔
      ∃ u, Repasses ext s token data u ∧ u.id = k ∧ data.newPassword = password := by
  simp only [storedPassword, Option.bind_eq_bind, Option.bind_eq_some_iff, toOption_eq_some,
    changePassword_eq_ok, Option.pure_def, Option.some.injEq, Prod.mk.injEq]
  constructor
  · rintro ⟨_, ⟨u, hrepasses, rfl⟩, v, hv, hid, hnew⟩
    cases hv
    exact ⟨u, hrepasses, hid, hnew⟩
  · rintro ⟨u, hrepasses, hid, hnew⟩
    exact ⟨_, ⟨u, hrepasses, rfl⟩, _, rfl, hid, hnew⟩

theorem storedPassword_add {env : Env} {token : Bearer} {data : UserAdminCreate} {k : ℤ}
    {password : String} :
    storedPassword ext s ⟨env, token, .user (.add data)⟩ = some (k, password) ↔
      ∃ caller role, Admits ext env s token data caller role ∧ s.users.next = k ∧
        data.password = password := by
  simp only [storedPassword, Option.map_eq_some_iff, toOption_eq_some, addUser_eq_ok,
    Prod.mk.injEq]
  constructor
  · rintro ⟨_, ⟨caller, role, hadmits, rfl⟩, hid, hnew⟩
    exact ⟨caller, role, hadmits, hid, hnew⟩
  · rintro ⟨caller, role, hadmits, hid, hnew⟩
    exact ⟨_, ⟨caller, role, hadmits, rfl⟩, hid, hnew⟩

theorem keepsPolicy_iff : KeepsPolicy ext s c ↔
    ∀ k password, storedPassword ext s c = some (k, password) →
      validatePasswordStrength password = true := by
  obtain ⟨env, token, r⟩ := c
  unfold KeepsPolicy
  split
  next secret new hr =>
    cases hr
    simp only [storedPassword_reset]
    constructor
    · rintro h k password ⟨record, u, hresets, hu, _, rfl⟩
      exact h record u hresets hu
    · intro h record u hresets hu
      exact h u.id new ⟨record, u, hresets, hu, rfl, rfl⟩
  next data hr =>
    cases hr
    simp only [storedPassword_change]
    constructor
    · rintro h k password ⟨u, hrepasses, _, rfl⟩
      exact h u hrepasses
    · intro h u hrepasses
      exact h u.id data.newPassword ⟨u, hrepasses, rfl, rfl⟩
  next data hr =>
    cases hr
    simp only [storedPassword_add]
    constructor
    · rintro h k password ⟨caller, role, hadmits, _, rfl⟩
      exact h caller role hadmits
    · intro h caller role hadmits
      exact h _ data.password ⟨caller, role, hadmits, rfl, rfl⟩
  next hreset hchange hadd =>
    refine iff_of_true trivial fun k password hstored => ?_
    unfold storedPassword at hstored
    split at hstored
    next data _ =>
      obtain ⟨_, _, hpair⟩ := Option.map_eq_some_iff.mp hstored
      cases hpair
      exact data.password_strength
    next secret new hr => exact absurd hr (hreset secret new)
    next data hr => exact absurd hr (hchange data)
    next data hr => exact absurd hr (hadd data)
    next => cases hstored

end

/-! ### Hashes before and after -/

def HashKept (t : Table User) (k : ℤ) (u' : User) : Prop :=
  ∃ u, t.get k = some u ∧ u'.hashedPassword = u.hashedPassword

/-- What becomes of the hashes, by the password that is stored. -/
inductive HashMove (ext : Ext) (salt : String) (t : Table User) :
    Option (ℤ × String) → Table User → Prop
  | kept (t' : Table User)
      (hrest : ∀ k u', t'.get k = some u' → k = t.next ∨ HashKept t k u') :
      HashMove ext salt t none t'
  | stored (t' : Table User) (j : ℤ) (password : String) (v : User) (hrow : t'.get j = some v)
      (hhash : v.hashedPassword = ext.hashpw salt password)
      (hrest : ∀ k u', k ≠ j → t'.get k = some u' → HashKept t k u') :
      HashMove ext salt t (some (j, password)) t'

section

variable {ext : Ext} {salt password : String} {t : Table User}

theorem HashMove.same : HashMove ext salt t none t :=
  .kept t fun _ u' h => Or.inr ⟨u', h, rfl⟩

theorem HashMove.inserted {v : User} (hid : v.id = t.next)
    (hhash : v.hashedPassword = ext.hashpw salt password) :
    HashMove ext salt t (some (t.next, password)) (t.insert v) := by
  have hrow : (t.insert v).get t.next = some v := by
    rw [Table.get_insert_next, stamp_eq_self hid]
  exact .stored _ _ _ v hrow hhash fun k u' hk h => ⟨u', get_insert_user hk h, rfl⟩

theorem HashMove.rewritten {j : ℤ} {u : User} (hu : t.get j = some u) :
    HashMove ext salt t (some (j, password))
      (t.update j fun u => { u with hashedPassword := ext.hashpw salt password }) := by
  refine .stored _ _ _ _ (get_update_of_get rfl hu) rfl fun k u' hk h => ?_
  obtain ⟨v, hv, rfl⟩ := get_update_user (by intro _; rfl) h
  exact ⟨v, hv, by rw [if_neg hk]⟩

theorem HashMove.rewrite_kept {j : ℤ} {f : User → User} (hid : ∀ u, (f u).id = u.id)
    (hf : ∀ u, (f u).hashedPassword = u.hashedPassword) :
    HashMove ext salt t none (t.update j f) := by
  refine .kept _ fun k u' h => ?_
  obtain ⟨v, hv, rfl⟩ := get_update_user hid h
  refine Or.inr ⟨v, hv, ?_⟩
  split
  · exact hf v
  · rfl

/-- A request outside the four stores no password. -/
theorem UserWrite.hashMove {s : Store} {env : Env} {token : Bearer} {r : Request}
    {t' : Table User} (h : UserWrite ext env s token r t')
    (hreset : ∀ secret new, r ≠ .auth (.resetPassword secret new))
    (hchange : ∀ data, r ≠ .guest (.changePassword data)) :
    HashMove ext salt s.users none t' := by
  cases h with
  | same => exact .same
  | added u h hfits =>
    refine .kept _ fun k u' hget => ?_
    by_cases hk : k = s.users.next
    · exact Or.inl hk
    · exact Or.inr ⟨u', get_insert_user hk hget, rfl⟩
  | changed k f h =>
    refine HashMove.rewrite_kept h.id_eq ?_
    cases h with
    | reset secret new record h => exact absurd rfl (hreset secret new)
    | password data u h => exact absurd rfl (hchange data)
    | managed r userId f u hchange h =>
      intro v
      rw [UserRequest.change_eq hchange v]
    | _ => exact fun _ => rfl
  | removed userId j hr =>
    refine .kept _ fun k u' hget => ?_
    rw [Table.get_delete] at hget
    split at hget
    · cases hget
    · exact Or.inr ⟨u', hget, rfl⟩

end

section

variable (ext : Ext) (s : Store) (env : Env) (token : Bearer)

theorem registerUser_hashMove (data : RegisterRequest) :
    HashMove ext env.salt s.users (storedPassword ext s ⟨env, token, .auth (.register data)⟩)
      (committed s (registerUser ext env s data)).users := by
  dsimp only [storedPassword]
  cases hx : registerUser ext env s data with
  | error e => exact .same
  | ok a =>
    obtain ⟨_, rfl⟩ := registerUser_eq_ok.mp hx
    exact HashMove.inserted rfl rfl

/-- A token of an account that is gone resets nothing. -/
theorem resetPassword_hashMove (secret new : String) :
    HashMove ext env.salt s.users
      (storedPassword ext s ⟨env, token, .auth (.resetPassword secret new)⟩)
      (committed s (resetPassword ext env s secret new)).users := by
  dsimp only [storedPassword]
  cases hx : resetPassword ext env s secret new with
  | error e => exact .same
  | ok a =>
    obtain ⟨record, h, rfl⟩ := resetPassword_eq_ok.mp hx
    simp only [Except.toOption, h.live, Option.bind_eq_bind, Option.bind_some, committed]
    cases hu : s.users.get record.userId with
    | none =>
      rw [Table.update_of_get_eq_none _ hu]
      exact .same
    | some u =>
      have hid : u.id = record.userId := ((Table.get_eq_some _).mp hu).2
      rw [Option.bind_some, hid]
      exact HashMove.rewritten hu

theorem changePassword_hashMove (data : PasswordChange) :
    HashMove ext env.salt s.users
      (storedPassword ext s ⟨env, token, .guest (.changePassword data)⟩)
      (committed s (changePassword ext env s token data)).users := by
  dsimp only [storedPassword]
  cases hx : changePassword ext env s token data with
  | error e => exact .same
  | ok a =>
    obtain ⟨u, h, rfl⟩ := changePassword_eq_ok.mp hx
    have hu := get_of_getCurrentUser h.caller
    exact HashMove.rewritten hu

theorem addUser_hashMove (data : UserAdminCreate) :
    HashMove ext env.salt s.users (storedPassword ext s ⟨env, token, .user (.add data)⟩)
      (committed s (addUser ext env s token data)).users := by
  dsimp only [storedPassword]
  cases hx : addUser ext env s token data with
  | error e => exact .same
  | ok a =>
    obtain ⟨caller, role, h, rfl⟩ := addUser_eq_ok.mp hx
    exact HashMove.inserted rfl rfl

end

theorem handle_hashMove (ext : Ext) (s : Store) (c : Call) :
    HashMove ext c.env.salt s.users (storedPassword ext s c) (handle ext s c).users := by
  have hwrite := handle_userWrite ext s c
  obtain ⟨env, token, r⟩ := c
  unfold storedPassword
  split
  next data hr =>
    cases hr
    exact registerUser_hashMove ext s env token data
  next secret new hr =>
    cases hr
    exact resetPassword_hashMove ext s env token secret new
  next data hr =>
    cases hr
    exact changePassword_hashMove ext s env token data
  next data hr =>
    cases hr
    exact addUser_hashMove ext s env token data
  next _ hreset hchange _ => exact hwrite.hashMove hreset hchange

/-! ### Worlds -/

/-- The passwords are kept for accounts that exist, and each gives the hash of
its account. -/
structure PasswordWorld.Traced (ext : Ext) (w : PasswordWorld) : Prop where
  fresh : ∀ k, w.store.users.next ≤ k → w.origin k = none
  hashed : ∀ k u salt password, w.store.users.get k = some u →
    w.origin k = some (salt, password) → u.hashedPassword = ext.hashpw salt password

section

variable {ext : Ext} {w : PasswordWorld} {c : Call}

theorem get_lt_next {t : Table User} {k : ℤ} {u : User} (h : t.get k = some u) : k < t.next := by
  obtain ⟨hmem, rfl⟩ := (Table.get_eq_some _).mp h
  exact t.below u hmem

/-- A row after the step: its password is the one just stored, or it is the row
of before with its old one. -/
theorem PasswordWorld.step_origin (h : w.Traced ext) {k : ℤ} {u' : User}
    {salt password : String} (hget : (w.step ext c).store.users.get k = some u')
    (horigin : (w.step ext c).origin k = some (salt, password)) :
    (storedPassword ext w.store c = some (k, password) ∧
      u'.hashedPassword = ext.hashpw salt password) ∨
    ∃ u, w.store.users.get k = some u ∧ w.origin k = some (salt, password) ∧
      u'.hashedPassword = u.hashedPassword := by
  have hmove := handle_hashMove ext w.store c
  replace hget : (handle ext w.store c).users.get k = some u' := hget
  unfold PasswordWorld.step at horigin
  generalize (handle ext w.store c).users = t at hmove hget
  generalize storedPassword ext w.store c = stored at hmove horigin
  cases hmove with
  | kept _ hrest =>
    rcases hrest k u' hget with hk | ⟨u, hu, hhash⟩
    · rw [h.fresh k hk.ge] at horigin
      cases horigin
    · exact Or.inr ⟨u, hu, horigin, hhash⟩
  | stored _ j new v hrow hhash hrest =>
    by_cases hk : k = j
    · subst hk
      simp only [if_true, Option.some.injEq, Prod.mk.injEq] at horigin
      obtain ⟨rfl, rfl⟩ := horigin
      obtain rfl := Option.some.inj (hrow.symm.trans hget)
      exact Or.inl ⟨rfl, hhash⟩
    · simp only [if_neg hk] at horigin
      obtain ⟨u, hu, hhash⟩ := hrest k u' hk hget
      exact Or.inr ⟨u, hu, horigin, hhash⟩

theorem PasswordWorld.step_stored {k : ℤ} {password : String}
    (h : storedPassword ext w.store c = some (k, password)) :
    (w.step ext c).origin k = some (c.env.salt, password) ∧
      ∃ u, (w.step ext c).store.users.get k = some u := by
  have hmove := handle_hashMove ext w.store c
  rw [h] at hmove
  have hrow : ∃ u, (handle ext w.store c).users.get k = some u := by
    cases hmove with
    | stored _ _ _ v hrow _ _ => exact ⟨v, hrow⟩
  exact ⟨by simp only [PasswordWorld.step, h, if_true], hrow⟩

theorem PasswordWorld.Traced.step (h : w.Traced ext) : (w.step ext c).Traced ext where
  fresh := by
    intro k hk
    have hle : w.store.users.next ≤ (w.step ext c).store.users.next :=
      (handle_userWrite ext w.store c).next_le
    cases hstored : storedPassword ext w.store c with
    | none =>
      simp only [PasswordWorld.step, hstored]
      exact h.fresh k (hle.trans hk)
    | some a =>
      obtain ⟨j, password⟩ := a
      obtain ⟨_, u, hu⟩ := step_stored hstored
      have hlt := get_lt_next hu
      have hne : k ≠ j := by omega
      simp only [PasswordWorld.step, hstored, if_neg hne]
      exact h.fresh k (hle.trans hk)
  hashed := by
    intro k u' salt password hget horigin
    rcases step_origin h hget horigin with ⟨_, hhash⟩ | ⟨u, hu, hold, hhash⟩
    · exact hhash
    · rw [hhash]
      exact h.hashed k u salt password hu hold

theorem PasswordWorld.strong_step_iff (h : w.Traced ext) (hstrong : w.Strong ext) :
    (w.step ext c).Strong ext ↔ KeepsPolicy ext w.store c := by
  rw [keepsPolicy_iff]
  constructor
  · intro hnext k password hstored
    obtain ⟨horigin, u, hu⟩ := step_stored hstored
    exact (hnext k u c.env.salt password hu horigin).2
  · intro hpolicy k u' salt password hget horigin
    refine ⟨h.step.hashed k u' salt password hget horigin, ?_⟩
    rcases step_origin h hget horigin with ⟨hstored, _⟩ | ⟨u, hu, hold, _⟩
    · exact hpolicy k password hstored
    · exact (hstrong k u salt password hu hold).2

end

/-! ### Runs -/

def untracedWorld (s : Store) : PasswordWorld := ⟨s, fun _ => none⟩

theorem passwords_strong_iff (ext : Ext) (s : Store) (cs : List Call) :
    Always (PasswordWorld.step ext) (PasswordWorld.Strong ext) (untracedWorld s) cs ↔
      Along (PasswordWorld.step ext) (fun w c => KeepsPolicy ext w.store c)
        (untracedWorld s) cs := by
  have htraced : (untracedWorld s).Traced ext :=
    ⟨fun _ _ => rfl, fun _ _ _ _ _ h => by cases h⟩
  have hstrong : (untracedWorld s).Strong ext := fun _ _ _ _ _ h => by cases h
  exact always_iff_along (J := PasswordWorld.Traced ext) (Q := fun _ _ => True)
    (fun _ _ hJ => hJ.step) (fun _ _ hJ _ hI => PasswordWorld.strong_step_iff hJ hI)
    (along_of_forall fun _ _ _ => trivial) htraced hstrong

/-- A guest changes the password to a single letter. -/
def weakChange : Call := ⟨sampleEnv "txn_1", some 1, .guest (.changePassword ⟨"secret", "a"⟩)⟩

theorem weak_password_stored : ¬Always (PasswordWorld.step sampleExt)
    (PasswordWorld.Strong sampleExt) (untracedWorld sampleStore) [weakChange] := by
  intro h
  have hrow : (((untracedWorld sampleStore).step sampleExt weakChange).store.users.get 1).isSome =
      true := by decide +kernel
  obtain ⟨u, hu⟩ := Option.isSome_iff_exists.mp hrow
  have horigin : ((untracedWorld sampleStore).step sampleExt weakChange).origin 1 =
      some ("salt", "a") := by decide +kernel
  have hweak : validatePasswordStrength "a" = false := by decide +kernel
  have hstrong := (h.2 1 u "salt" "a" hu horigin).2
  rw [hweak] at hstrong
  cases hstrong

end HotelMs
