import HotelMs.UserWrites
import HotelMs.Lib.Runs

/-!
# The stored form of addresses

The writers of `users.email` normalise in different ways: some trim and lower
the text, some only lower an `EmailStr`. The log-in looks for the trimmed and
lowered text.
-/

namespace HotelMs

open Tables Runs

/-- What is used of `str.lower`: it is idempotent, and it leaves white space
white space and nothing else, so trimming can be done before or after. -/
structure LowerLaws (ext : Ext) : Prop where
  lower_lower : ∀ text, ext.lower (ext.lower text) = ext.lower text
  strip_lower : ∀ text, PyText.strip (ext.lower text) = ext.lower (PyText.strip text)

/-- The address of a body that an endpoint only lowers. -/
def Request.emailStr : Request → Option String
  | .guest (.updateProfile data) => data.email
  | .user (.add data) => some data.email
  | .user (.edit _ data) => data.email
  | _ => none

/-- An `EmailStr` carries no surrounding white space. -/
def Request.Trimmed (r : Request) : Prop := ∀ email ∈ r.emailStr, PyText.strip email = email

structure EmailForm (ext : Ext) (s : Store) : Prop where
  normal : ∀ u ∈ s.users.rows, normalEmail ext u.email = u.email
  unique : ∀ u ∈ s.users.rows, ∀ v ∈ s.users.rows, u.email = v.email → u = v

/-- What the form gives: no two accounts with addresses that differ in letters
or surrounding white space only, and a log-in finds the account by any of them. -/
structure EmailsFound (ext : Ext) (s : Store) : Prop where
  normal : ∀ u ∈ s.users.rows, u.email = normalEmail ext u.email
  distinct : ∀ u ∈ s.users.rows, ∀ v ∈ s.users.rows,
    normalEmail ext u.email = normalEmail ext v.email → u = v
  found : ∀ u ∈ s.users.rows, ∀ typed password, normalEmail ext typed = normalEmail ext u.email →
    authenticateUser ext s typed password =
      if ext.checkpw password u.hashedPassword then some u else none

section

variable {ext : Ext} {s : Store}

theorem normalEmail_normalEmail (h : LowerLaws ext) (email : String) :
    normalEmail ext (normalEmail ext email) = normalEmail ext email := by
  unfold normalEmail
  rw [← h.strip_lower, h.lower_lower, PyText.strip_strip]

theorem normalEmail_lower (h : LowerLaws ext) {email : String}
    (htrim : PyText.strip email = email) :
    normalEmail ext (ext.lower email) = ext.lower email := by
  unfold normalEmail
  rw [h.lower_lower, h.strip_lower, htrim]

/-! ### Addresses written -/

variable {env : Env} {token : Bearer} {r : Request}

theorem providerEmail_eq {r : PublicRequest} {email : String}
    (h : providerEmail ext r = some email) : ∃ text, email = normalEmail ext text := by
  unfold providerEmail at h
  split at h
  · exact ⟨_, (Option.some.inj h).symm⟩
  · exact ⟨_, (Option.some.inj h).symm⟩
  · cases h

theorem Adds.normal {u : User} (h : Adds ext env s token r u) (hlaws : LowerLaws ext)
    (htrim : r.Trimmed) : normalEmail ext u.email = u.email := by
  cases h with
  | registered data => exact normalEmail_normalEmail hlaws data.email
  | asserted r email fullName photoUrl hemail =>
    obtain ⟨text, rfl⟩ := providerEmail_eq hemail
    exact normalEmail_normalEmail hlaws text
  | admitted data caller role h => exact normalEmail_lower hlaws (htrim data.email rfl)

theorem lowered_normal (hlaws : LowerLaws ext) {new : Option String} {old : String}
    (htrim : ∀ email ∈ new, PyText.strip email = email) (hold : normalEmail ext old = old) :
    normalEmail ext ((new.map ext.lower).getD old) = (new.map ext.lower).getD old := by
  cases new with
  | none => exact hold
  | some email => exact normalEmail_lower hlaws (htrim email rfl)

theorem Changes.normal {k : ℤ} {f : User → User} {u : User} (h : Changes ext env s token r k f)
    (hlaws : LowerLaws ext) (htrim : r.Trimmed) (hu : normalEmail ext u.email = u.email) :
    normalEmail ext (f u).email = (f u).email := by
  cases h with
  | profile data v h => exact lowered_normal hlaws htrim hu
  | edited userId data v role h => exact lowered_normal hlaws htrim hu
  | managed r userId f v hchange h =>
    rw [UserRequest.change_eq hchange u]
    exact hu
  | _ => exact hu

/-- A rewritten row keeps its address or meets the constraints of the table. -/
theorem Changes.fits {k : ℤ} {f : User → User} {u : User} (h : Changes ext env s token r k f)
    (hu : s.users.get k = some u) : (f u).email = u.email ∨ userFits s (f u) := by
  cases h with
  | profile data v h =>
    obtain rfl := Option.some.inj ((get_of_getCurrentUser h.caller).symm.trans hu)
    exact Or.inr h.fits
  | edited userId data v role h =>
    obtain rfl := Option.some.inj (h.target.symm.trans hu)
    exact Or.inr h.fits
  | managed r userId f v hchange h =>
    exact Or.inl (by rw [UserRequest.change_eq hchange u])
  | _ => exact Or.inl rfl

theorem userFits.unique {u v : User} (h : userFits s u) (hv : v ∈ s.users.rows)
    (hemail : v.email = u.email) : v.id = u.id := by
  have hnone := (Table.any_eq_false _).mp h.1 v hv
  simpa [hemail] using hnone

/-! ### One request -/

theorem EmailForm.added (h : EmailForm ext s) {u : User} (hid : u.id = s.users.next)
    (hnormal : normalEmail ext u.email = u.email) (hfits : userFits s u) :
    EmailForm ext { s with users := s.users.insert u } := by
  have hrows : ∀ v ∈ (s.users.insert u).rows, v ∈ s.users.rows ∨ v = u := by
    intro v hv
    rw [Table.mem_insert, stamp_eq_self hid] at hv
    exact hv
  have hnew : ∀ v ∈ s.users.rows, v.email ≠ u.email := by
    intro v hv hemail
    exact s.users.key_ne_next hv ((hfits.unique hv hemail).trans hid)
  constructor
  · intro v hv
    rcases hrows v hv with hold | rfl
    · exact h.normal v hold
    · exact hnormal
  · intro v hv w hw hemail
    rcases hrows v hv with hv' | rfl <;> rcases hrows w hw with hw' | rfl
    · exact h.unique v hv' w hw' hemail
    · exact absurd hemail (hnew v hv')
    · exact absurd hemail.symm (hnew w hw')
    · rfl

theorem EmailForm.changed (h : EmailForm ext s) {k : ℤ} {f : User → User} {u : User}
    (hu : s.users.get k = some u) (hid : (f u).id = u.id)
    (hnormal : normalEmail ext (f u).email = (f u).email)
    (hfits : (f u).email = u.email ∨ userFits s (f u)) :
    EmailForm ext { s with users := s.users.update k f } := by
  obtain ⟨hmem, hkey⟩ := (Table.get_eq_some _).mp hu
  have hrows : ∀ v ∈ (s.users.update k f).rows, v = f u ∨ (v ∈ s.users.rows ∧ v.id ≠ k) := by
    intro v hv
    rw [Table.mem_update_of_get _ hu, stamp_eq_self hid] at hv
    exact hv
  have hother : ∀ v ∈ s.users.rows, v.id ≠ k → v.email ≠ (f u).email := by
    intro v hv hne hemail
    rcases hfits with hsame | hfits
    · have hv' : v = u := h.unique v hv u hmem (hemail.trans hsame)
      exact hne (hv' ▸ hkey)
    · exact hne ((hfits.unique hv hemail).trans (hid.trans hkey))
  constructor
  · intro v hv
    rcases hrows v hv with rfl | ⟨hold, _⟩
    · exact hnormal
    · exact h.normal v hold
  · intro v hv w hw hemail
    rcases hrows v hv with rfl | ⟨hv', hvk⟩ <;> rcases hrows w hw with rfl | ⟨hw', hwk⟩
    · rfl
    · exact absurd hemail.symm (hother w hw' hwk)
    · exact absurd hemail (hother v hv' hvk)
    · exact h.unique v hv' w hw' hemail

theorem EmailForm.of_users {t : Store} (h : EmailForm ext s) (husers : t.users = s.users) :
    EmailForm ext t := by
  constructor
  · rw [husers]
    exact h.normal
  · rw [husers]
    exact h.unique

theorem EmailForm.handle (h : EmailForm ext s) (hlaws : LowerLaws ext) {c : Call}
    (htrim : c.request.Trimmed) : EmailForm ext (handle ext s c) := by
  have hwrite := handle_userWrite ext s c
  generalize hnext : HotelMs.handle ext s c = t at hwrite ⊢
  suffices hform : EmailForm ext { s with users := t.users } from hform.of_users rfl
  generalize t.users = users at hwrite ⊢
  cases hwrite with
  | same => exact h
  | added u hadds hfits => exact h.added hadds.id_eq (hadds.normal hlaws htrim) hfits
  | changed k f hchanges =>
    cases hu : s.users.get k with
    | none =>
      rw [Table.update_of_get_eq_none _ hu]
      exact h
    | some u =>
      have hmem := ((Table.get_eq_some _).mp hu).1
      exact h.changed hu (hchanges.id_eq u) (hchanges.normal hlaws htrim (h.normal u hmem))
        (hchanges.fits hu)
  | removed userId k hr =>
    have hrows : ∀ v ∈ (s.users.delete k).rows, v ∈ s.users.rows := fun v hv =>
      ((Table.mem_deleteWhere _).mp hv).1
    exact ⟨fun v hv => h.normal v (hrows v hv),
      fun v hv w hw => h.unique v (hrows v hv) w (hrows w hw)⟩

theorem getUserByEmail_of_mem (h : EmailForm ext s) {u : User} (hu : u ∈ s.users.rows) :
    getUserByEmail s u.email = some u := by
  unfold getUserByEmail
  cases hrows : s.users.select fun v => v.email = u.email with
  | nil =>
    have hmem : u ∈ s.users.select fun v => v.email = u.email :=
      (Table.mem_select _).mpr ⟨hu, decide_eq_true rfl⟩
    rw [hrows] at hmem
    cases hmem
  | cons v rest =>
    have hmem : v ∈ s.users.select fun v => v.email = u.email := by
      rw [hrows]
      exact List.mem_cons_self ..
    obtain ⟨hv, hemail⟩ := (Table.mem_select _).mp hmem
    rw [List.head?_cons, h.unique v hv u hu (of_decide_eq_true hemail)]

theorem EmailForm.emailsFound (h : EmailForm ext s) : EmailsFound ext s where
  normal := fun u hu => (h.normal u hu).symm
  distinct := by
    intro u hu v hv hemail
    rw [h.normal u hu, h.normal v hv] at hemail
    exact h.unique u hu v hv hemail
  found := by
    intro u hu typed password htyped
    rw [h.normal u hu] at htyped
    unfold authenticateUser
    rw [htyped, getUserByEmail_of_mem h hu]
    rfl

end

/-! ### Runs -/

/-- From a table with addresses in normal form, every run keeps them so, and a
log-in finds an account by every spelling of its address. -/
theorem emails_found (ext : Ext) (hlaws : LowerLaws ext) (s : Store) (hform : EmailForm ext s)
    (cs : List Call) (htrim : ∀ c ∈ cs, c.request.Trimmed) :
    Always (handle ext) (EmailsFound ext) s cs := by
  have hrun : Always (handle ext) (EmailForm ext) s cs :=
    always_of_along (P := fun _ c => c.request.Trimmed) (fun _ _ h hc => h.handle hlaws hc) hform
      (along_of_forall fun _ c hc => htrim c hc)
  exact hrun.mono fun _ h => h.emailsFound

/-! ### The small instance with letters lowered -/

def asciiExt : Ext :=
  { sampleExt with lower := fun text => String.ofList (text.toList.map Char.toLower) }

theorem asciiExt_lowerLaws : LowerLaws asciiExt where
  lower_lower := by
    intro text
    simp only [asciiExt, String.toList_ofList, List.map_map]
    exact congrArg String.ofList (List.map_congr_left fun c _ => PyText.toLower_toLower c)
  strip_lower := PyText.strip_map PyText.isSpace_toLower

def spelledRun : List Call :=
  [⟨sampleEnv "txn_1", none, .auth (.socialLogin (some ⟨some " Dora@X.org ", none, none, none⟩))⟩,
    ⟨sampleEnv "txn_1", some 2, .guest (.updateProfile ⟨none, some "Bob@Y.org", none⟩)⟩]

theorem sampleStore_emailForm : EmailForm asciiExt sampleStore := by
  constructor
  · decide +kernel
  · decide +kernel

theorem spelledRun_trimmed : ∀ c ∈ spelledRun, c.request.Trimmed := by
  intro c hc
  simp only [spelledRun, List.mem_cons, List.not_mem_nil, or_false] at hc
  rcases hc with rfl | rfl
  · exact fun _ h => by cases h
  · intro email h
    obtain rfl := Option.some.inj h
    decide +kernel

theorem emails_found_spelled :
    Always (handle asciiExt) (EmailsFound asciiExt) sampleStore spelledRun :=
  emails_found asciiExt asciiExt_lowerLaws sampleStore sampleStore_emailForm spelledRun
    spelledRun_trimmed

end HotelMs
