import HotelMs.Schemas

/-!
# Errors, outcomes and dependencies (`dependencies.py`, `middleware/rbac.py`)
-/

namespace HotelMs

/-- What a handler or service raises. `integrity` is a violated constraint
(`IntegrityError`), `data` any other refusal by the database (`DataError`,
`StatementError`, `StaleDataError`). -/
inductive Error
  | http (status : ℕ) (detail : String)
  | payment (message : String)
  | integrity
  | data
  deriving DecidableEq

/-- The store after code that commits once, at its end: on an error nothing is
stored, because `DBSessionMiddleware` closes the session uncommitted. -/
def committed {α : Type} (s : Store) : Except Error (α × Store) → Store
  | .ok r => r.2
  | .error _ => s

/-- Outcome of code that commits more than once: the store it leaves behind
counts even when it raises. -/
abbrev Reply (α : Type) := Except Error α × Store

def ensure (p : Prop) [Decidable p] (e : Error) : Except Error Unit :=
  if p then .ok () else .error e

def found {α : Type} (o : Option α) (e : Error) : Except Error α :=
  match o with
  | some a => .ok a
  | none => .error e

@[simp] theorem ensure_eq_ok {p : Prop} [Decidable p] {e : Error} {u : Unit} :
    ensure p e = .ok u ↔ p := by
  unfold ensure
  split <;> simp [*]

@[simp] theorem found_eq_ok {α : Type} {o : Option α} {e : Error} {a : α} :
    found o e = .ok a ↔ o = some a := by
  cases o <;> simp [found]

@[simp] theorem bind_eq_ok {α β : Type} {x : Except Error α} {f : α → Except Error β} {b : β} :
    x >>= f = .ok b ↔ ∃ a, x = .ok a ∧ f a = .ok b := by
  cases x <;> simp [bind, Except.bind]

@[simp] theorem pure_eq_ok {α : Type} {a b : α} :
    (pure a : Except Error α) = .ok b ↔ a = b := by
  simp [pure, Except.pure]

/-- A check, and then a result. -/
theorem ensure_pure_eq_ok {α : Type} {p : Prop} [Decidable p] {e : Error} {a b : α} :
    (ensure p e >>= fun _ => pure a) = .ok b ↔ p ∧ b = a := by
  simp only [bind_eq_ok, ensure_eq_ok, pure_eq_ok]
  constructor
  · rintro ⟨_, hp, rfl⟩
    exact ⟨hp, rfl⟩
  · rintro ⟨hp, rfl⟩
    exact ⟨(), hp, rfl⟩

/-- Library code the handlers call: `str.lower`, and bcrypt's `hashpw` (salt
and password) and `checkpw`. -/
structure Ext where
  lower : String → String
  hashpw : String → String → String
  checkpw : String → String → Bool

/-- The arguments of `_charge_card`. -/
structure Charge where
  amount : ℚ
  currency : String
  method : String

/-- What a request reads from outside the store: the clock, a fresh salt, a
fresh random token, and the payment gateway (`none`: it raises). -/
structure Env where
  now : ℤ
  salt : String
  token : String
  gateway : Charge → Option String

/-- A bearer token, decoded: the `user_id` claim of a valid access token that
is not blacklisted; `none` when the request carries no such token. -/
abbrev Bearer := Option ℤ

def credentialsExc : Error := .http 401 "Could not validate credentials"

def getCurrentUser (s : Store) (token : Bearer) : Except Error User := do
  let userId ← found token credentialsExc
  found (s.users.get userId) credentialsExc

def getCurrentHotel (user : User) : Except Error ℤ :=
  found user.hotelId (.http 403 "User is not assigned to a hotel")

def getOptionalHotel (user : User) : Option ℤ :=
  if user.role = .superAdmin then none else user.hotelId

def requireRoles (roles : List Role) (detail : String) (user : User) : Except Error Unit :=
  ensure (user.role ∈ roles) (.http 403 detail)

def requireAdmin : User → Except Error Unit :=
  requireRoles [.hotelAdmin, .superAdmin] "Access denied. Required roles: hotel_admin, super_admin"

def requireStaffOrAdmin : User → Except Error Unit :=
  requireRoles [.staff, .hotelAdmin, .superAdmin]
    "Access denied. Required roles: staff, hotel_admin, super_admin"

@[simp] theorem getCurrentUser_eq_ok {s : Store} {token : Bearer} {u : User} :
    getCurrentUser s token = .ok u ↔ ∃ id, token = some id ∧ s.users.get id = some u := by
  simp [getCurrentUser]

@[simp] theorem getCurrentHotel_eq_ok {u : User} {h : ℤ} :
    getCurrentHotel u = .ok h ↔ u.hotelId = some h := by
  simp [getCurrentHotel]

theorem requireAdmin_eq_ok {u : User} {x : Unit} :
    requireAdmin u = .ok x ↔ u.role = .hotelAdmin ∨ u.role = .superAdmin := by
  simp [requireAdmin, requireRoles]

theorem committed_of_refused {α : Type} {s : Store} {x : Except Error (α × Store)}
    (h : ∀ r, x ≠ .ok r) : committed s x = s := by
  cases x with
  | error e => rfl
  | ok r => exact absurd rfl (h r)

theorem id_of_getCurrentUser {s : Store} {u : ℤ} {user : User}
    (h : getCurrentUser s (some u) = .ok user) : user.id = u := by
  obtain ⟨id, hid, hget⟩ := getCurrentUser_eq_ok.mp h
  rw [← Option.some.inj hid] at hget
  exact ((Tables.Table.get_eq_some _).mp hget).2

end HotelMs
