import HotelMs.Api
import HotelMs.Lib.OneShot

/-!
# Password resets that overlap

`reset_password` of `api/v1/public/auth.py` one database step at a time. A
request reads the row of its token, and later commits the new hash together with
`used_at`. The transactions are READ COMMITTED and the read takes no lock.
-/

namespace HotelMs

open Tables Runs OneShot

/-- Up to the last check before the writes. -/
def resetRead (s : Store) (now : ℤ) (token newPassword : String) : Except Error OneTimeToken := do
  let record ← found (liveToken s.passwordResets now token)
    (.http 400 "Invalid or expired reset token")
  ensure (8 ≤ newPassword.length) (.http 422 "Password must be at least 8 characters")
  return record

def resetCommit (ext : Ext) (env : Env) (s : Store) (record : OneTimeToken)
    (newPassword : String) : Store :=
  { s with
    users := s.users.update record.userId fun u =>
      { u with hashedPassword := ext.hashpw env.salt newPassword }
    passwordResets := useToken s.passwordResets env.now record }

/-- Undisturbed, the steps do what the endpoint does. -/
theorem resetPassword_steps (ext : Ext) (env : Env) (s : Store) (token newPassword : String) :
    resetPassword ext env s token newPassword =
      (resetRead s env.now token newPassword).map fun record =>
        ((), resetCommit ext env s record newPassword) := by
  unfold resetPassword resetRead
  cases liveToken s.passwordResets env.now token with
  | none => rfl
  | some record =>
    by_cases hlen : 8 ≤ newPassword.length
    · simp [found, ensure, hlen, bind, Except.bind, Except.map, resetCommit, pure, Except.pure]
    · simp [found, ensure, hlen, bind, Except.bind, Except.map]

inductive ResetTask
  | asked (newPassword : String)
  | checked (record : OneTimeToken) (newPassword : String)
  | answered (result : Except Error Unit)
  deriving DecidableEq

def resetStep (ext : Ext) (env : Env) (token : String) (s : Store) :
    ResetTask → ResetTask × Store
  | .asked newPassword =>
    match resetRead s env.now token newPassword with
    | .error e => (.answered (.error e), s)
    | .ok record => (.checked record newPassword, s)
  | .checked record newPassword => (.answered (.ok ()), resetCommit ext env s record newPassword)
  | .answered result => (.answered result, s)

structure ResetSystem where
  store : Store
  tasks : ℕ → ResetTask

structure ResetEvent where
  task : ℕ
  env : Env

def ResetSystem.step (ext : Ext) (token : String) (y : ResetSystem) (e : ResetEvent) :
    ResetSystem where
  store := (resetStep ext e.env token y.store (y.tasks e.task)).2
  tasks := Function.update y.tasks e.task (resetStep ext e.env token y.store (y.tasks e.task)).1

/-- Requests with the same token, each with its own new password. -/
def resetRequests (s : Store) (newPasswords : ℕ → String) : ResetSystem :=
  ⟨s, fun i => .asked (newPasswords i)⟩

/-! ### What a step can do -/

inductive ResetMove (ext : Ext) (token : String) (y : ResetSystem) (e : ResetEvent) :
    ResetSystem → Prop
  | refused {newPassword : String} {error : Error} (h : y.tasks e.task = .asked newPassword) :
      ResetMove ext token y e
        ⟨y.store, Function.update y.tasks e.task (.answered (.error error))⟩
  | read {newPassword : String} {record : OneTimeToken}
      (h : y.tasks e.task = .asked newPassword)
      (hread : resetRead y.store e.env.now token newPassword = .ok record) :
      ResetMove ext token y e
        ⟨y.store, Function.update y.tasks e.task (.checked record newPassword)⟩
  | commit {newPassword : String} {record : OneTimeToken}
      (h : y.tasks e.task = .checked record newPassword) :
      ResetMove ext token y e ⟨resetCommit ext e.env y.store record newPassword,
        Function.update y.tasks e.task (.answered (.ok ()))⟩
  | idle {result : Except Error Unit} (h : y.tasks e.task = .answered result) :
      ResetMove ext token y e y

theorem ResetSystem.step_move (ext : Ext) (token : String) (y : ResetSystem) (e : ResetEvent) :
    ResetMove ext token y e (y.step ext token e) := by
  unfold ResetSystem.step
  cases h : y.tasks e.task with
  | asked newPassword =>
    cases hread : resetRead y.store e.env.now token newPassword with
    | error err =>
      simp only [resetStep, hread]
      exact .refused h
    | ok record =>
      simp only [resetStep, hread]
      exact .read h hread
  | checked record newPassword =>
    simp only [resetStep]
    exact .commit h
  | answered result =>
    simp only [resetStep]
    rw [← h, Function.update_eq_self]
    exact .idle h

theorem resetRead_eq_ok {s : Store} {now : ℤ} {token newPassword : String} {record : OneTimeToken}
    (h : resetRead s now token newPassword = .ok record) :
    record ∈ s.passwordResets.rows ∧ record.token = token ∧ record.usedAt = none := by
  unfold resetRead at h
  simp only [bind_eq_ok, found_eq_ok, ensure_eq_ok, pure_eq_ok] at h
  obtain ⟨r, hr, _, _, rfl⟩ := h
  have hmem := (Table.mem_select _).mp (List.mem_of_mem_head? hr)
  simp only [Bool.and_eq_true, decide_eq_true_eq] at hmem
  exact ⟨hmem.1, hmem.2.1.1, hmem.2.1.2⟩

theorem mem_useToken {t : Table OneTimeToken} {now : ℤ} {record r : OneTimeToken} :
    r ∈ (useToken t now record).rows ↔
      ∃ r₀ ∈ t.rows, r = if r₀.id = record.id then { r₀ with usedAt := some now } else r₀ := by
  unfold useToken
  rw [Table.mem_update]
  refine exists_congr fun r₀ => and_congr_right fun _ => ?_
  rw [eq_comm]
  exact Iff.rfl

/-! ### The token's row -/

/-- A request succeeds with the step that writes the new hash. -/
def Succeeded (i : ℕ) (y : ResetSystem) : Prop := y.tasks i = .answered (.ok ())

instance (i : ℕ) (y : ResetSystem) : Decidable (Succeeded i y) :=
  inferInstanceAs (Decidable (_ = _))

def Checked (i : ℕ) (y : ResetSystem) : Prop :=
  ∃ record newPassword, y.tasks i = .checked record newPassword

def Spent (token : String) (y : ResetSystem) : Prop :=
  ∃ r ∈ y.store.passwordResets.rows, r.token = token ∧ r.usedAt ≠ none

def Carries (token : String) (id : ℤ) (y : ResetSystem) : Prop :=
  ∃ r ∈ y.store.passwordResets.rows, r.id = id ∧ r.token = token

/-- `token` is unique, and a request between its steps has loaded its row. -/
structure OneRow (token : String) (y : ResetSystem) : Prop where
  unique : ∀ id id', Carries token id y → Carries token id' y → id = id'
  loaded : ∀ i record newPassword, y.tasks i = .checked record newPassword →
    Carries token record.id y

section

variable {ext : Ext} {token : String} {y y' : ResetSystem} {e : ResetEvent}

theorem ResetMove.tasks_of_ne (hm : ResetMove ext token y e y') {i : ℕ} (hi : i ≠ e.task) :
    y'.tasks i = y.tasks i := by
  cases hm with
  | refused _ => exact Function.update_of_ne hi _ _
  | read _ _ => exact Function.update_of_ne hi _ _
  | commit _ => exact Function.update_of_ne hi _ _
  | idle _ => rfl

/-- Only a read leaves a request between its steps. -/
theorem ResetMove.read_of_checked (hm : ResetMove ext token y e y') {record : OneTimeToken}
    {newPassword : String} (h : y'.tasks e.task = .checked record newPassword) :
    resetRead y.store e.env.now token newPassword = .ok record := by
  cases hm with
  | refused _ =>
    have hself := (Function.update_self ..).symm.trans h
    cases hself
  | read _ hread =>
    have hself := (Function.update_self ..).symm.trans h
    cases hself
    exact hread
  | commit _ =>
    have hself := (Function.update_self ..).symm.trans h
    cases hself
  | idle hask => cases hask.symm.trans h

theorem ResetMove.carries (hm : ResetMove ext token y e y') {id : ℤ} :
    Carries token id y' ↔ Carries token id y := by
  cases hm with
  | refused _ => exact Iff.rfl
  | read _ _ => exact Iff.rfl
  | @commit _ written _ =>
    constructor
    · intro h
      obtain ⟨r, hr, hid, ht⟩ := h
      obtain ⟨r₀, hr₀, rfl⟩ := mem_useToken.mp hr
      refine ⟨r₀, hr₀, ?_⟩
      split at hid <;> split at ht <;> exact ⟨hid, ht⟩
    · intro h
      obtain ⟨r₀, hr₀, hid, ht⟩ := h
      refine ⟨_, mem_useToken.mpr ⟨r₀, hr₀, rfl⟩, ?_⟩
      split <;> exact ⟨hid, ht⟩
  | idle _ => exact Iff.rfl

theorem carries_of_read {now : ℤ} {newPassword : String} {record : OneTimeToken}
    (h : resetRead y.store now token newPassword = .ok record) : Carries token record.id y := by
  obtain ⟨hmem, htoken, _⟩ := resetRead_eq_ok h
  exact ⟨record, hmem, rfl, htoken⟩

theorem OneRow.move (h : OneRow token y) (hm : ResetMove ext token y e y') :
    OneRow token y' := by
  constructor
  · intro id id' hid hid'
    exact h.unique id id' (hm.carries.mp hid) (hm.carries.mp hid')
  · intro i record newPassword hi
    rw [hm.carries]
    by_cases he : i = e.task
    · rw [he] at hi
      exact carries_of_read (hm.read_of_checked hi)
    · rw [hm.tasks_of_ne he] at hi
      exact h.loaded i record newPassword hi

theorem not_spent_of_read (h : OneRow token y) {now : ℤ} {newPassword : String}
    {record : OneTimeToken} (hread : resetRead y.store now token newPassword = .ok record) :
    ¬Spent token y := by
  intro hspent
  obtain ⟨hmem, _, hunused⟩ := resetRead_eq_ok hread
  obtain ⟨r, hr, ht, hused⟩ := hspent
  have hid : r.id = record.id := h.unique _ _ ⟨r, hr, rfl, ht⟩ (carries_of_read hread)
  rw [y.store.passwordResets.eq_of_key hr hmem hid] at hused
  exact hused hunused

theorem checked_move {i : ℕ} (h : OneRow token y) (hm : ResetMove ext token y e y')
    (hi : Checked i y') : Checked i y ∨ ¬Spent token y := by
  obtain ⟨record, newPassword, hi⟩ := hi
  by_cases he : i = e.task
  · rw [he] at hi
    exact Or.inr (not_spent_of_read h (hm.read_of_checked hi))
  · rw [hm.tasks_of_ne he] at hi
    exact Or.inl ⟨record, newPassword, hi⟩

theorem succeeded_move {i : ℕ} (hm : ResetMove ext token y e y') :
    Succeeded i y' ↔ Succeeded i y ∨ i = e.task ∧ Checked i y := by
  unfold Succeeded Checked
  by_cases he : i = e.task
  · subst he
    cases hm with
    | refused h => simp [h]
    | read h _ => simp [h]
    | commit h => simp [h]
    | idle h => simp [h]
  · rw [hm.tasks_of_ne he]
    simp [he]

theorem spent_move (h : OneRow token y) (hm : ResetMove ext token y e y') :
    Spent token y' ↔ Spent token y ∨ Checked e.task y := by
  cases hm with
  | refused hask => simp [Spent, Checked, hask]
  | read hask _ => simp [Spent, Checked, hask]
  | @commit newPassword written hask =>
    refine iff_of_true ?_ (Or.inr ⟨written, newPassword, hask⟩)
    obtain ⟨r₀, hr₀, hid, ht⟩ := h.loaded e.task written newPassword hask
    refine ⟨_, mem_useToken.mpr ⟨r₀, hr₀, rfl⟩, ?_⟩
    rw [if_pos hid]
    exact ⟨ht, Option.some_ne_none _⟩
  | idle hask => simp [Checked, hask]

end

theorem reset_law (ext : Ext) (token : String) :
    TestThenAct (ResetSystem.step ext token) ResetEvent.task (OneRow token) (Spent token) Checked
      Succeeded where
  keeps := fun y e h => h.move (y.step_move ext token e)
  admitted_step := fun y e _ h hi => checked_move h (y.step_move ext token e) hi
  acted_step := fun y e _ _ => succeeded_move (y.step_move ext token e)
  used_step := fun y e h => spent_move h (y.step_move ext token e)
  apart := by
    intro y i hchecked hsucceeded
    obtain ⟨record, newPassword, hi⟩ := hchecked
    rw [Succeeded, hi] at hsucceeded
    cases hsucceeded

/-- A reset token is used once, whatever the order of the steps, exactly when no
request commits after the token was used. -/
theorem reset_single_use_iff (ext : Ext) (token : String) (s : Store)
    (hunique : ∀ r ∈ s.passwordResets.rows, ∀ r' ∈ s.passwordResets.rows,
      r.token = token → r'.token = token → r.id = r'.id)
    (newPasswords : ℕ → String) (es : List ResetEvent) :
    Always (ResetSystem.step ext token)
        (fun y => ∀ i j, Succeeded i y → Succeeded j y → i = j)
        (resetRequests s newPasswords) es ↔
      Along (ResetSystem.step ext token) (fun y e => Checked e.task y → ¬Spent token y)
        (resetRequests s newPasswords) es := by
  have hrow : OneRow token (resetRequests s newPasswords) := by
    constructor
    · intro id id' hid hid'
      obtain ⟨r, hr, rfl, ht⟩ := hid
      obtain ⟨r', hr', rfl, ht'⟩ := hid'
      exact hunique r hr r' hr' ht ht'
    · intro i record newPassword hi
      cases hi
  refine always_atMostOne_iff (reset_law ext token) hrow (fun i => ⟨?_, ?_⟩) es
  · intro h
    obtain ⟨record, newPassword, hi⟩ := h
    cases hi
  · intro h
    cases h

/-! ### Two requests with one token -/

def resetStore : Store :=
  { sampleStore with passwordResets := Table.empty.insert ⟨1, 1, "link", 1800, none⟩ }

def resetPasswords : ℕ → String
  | 0 => "password0"
  | _ => "password1"

def resetsAt (now : ℤ) (task : ℕ) : ResetEvent := ⟨task, { sampleEnv "txn_1" with now }⟩

theorem reset_single_use_iff_serial :
    Always (ResetSystem.step sampleExt "link")
        (fun y => ∀ i j, Succeeded i y → Succeeded j y → i = j)
        (resetRequests resetStore resetPasswords)
        [resetsAt 10 0, resetsAt 11 0, resetsAt 12 1, resetsAt 13 1] ↔
      Along (ResetSystem.step sampleExt "link") (fun y e => Checked e.task y → ¬Spent "link" y)
        (resetRequests resetStore resetPasswords)
        [resetsAt 10 0, resetsAt 11 0, resetsAt 12 1, resetsAt 13 1] := by
  refine reset_single_use_iff sampleExt "link" resetStore ?_ resetPasswords _
  decide +kernel

/-- Both requests read the row before either of them commits. -/
def overlappingResets : List ResetEvent :=
  [resetsAt 10 0, resetsAt 11 1, resetsAt 12 0, resetsAt 13 1]

def overlapAfter (n : ℕ) : ResetSystem :=
  (overlappingResets.take n).foldl (ResetSystem.step sampleExt "link")
    (resetRequests resetStore resetPasswords)

def ResetSystem.hashes (y : ResetSystem) : List String :=
  (y.store.users.select fun u => u.id = 1).map User.hashedPassword

theorem one_token_resets_twice :
    (overlapAfter 2).hashes = ["secret"] ∧
      (overlapAfter 3).hashes = ["password0"] ∧ Succeeded 0 (overlapAfter 3) ∧
      (overlapAfter 4).hashes = ["password1"] ∧ Succeeded 1 (overlapAfter 4) ∧
      ¬Always (ResetSystem.step sampleExt "link")
        (fun y => ∀ i j, Succeeded i y → Succeeded j y → i = j)
        (resetRequests resetStore resetPasswords) overlappingResets := by
  refine ⟨by decide +kernel, by decide +kernel, by decide +kernel, by decide +kernel,
    by decide +kernel, ?_⟩
  intro halways
  have hlast := halways.2.2.2.2
  have hsame : 0 = 1 := hlast 0 1 (by decide +kernel) (by decide +kernel)
  cases hsame

end HotelMs
