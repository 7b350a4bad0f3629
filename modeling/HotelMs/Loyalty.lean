import HotelMs.UserWrites
import HotelMs.Lib.Runs
import Mathlib.Algebra.BigOperators.Group.Finset.Basic

/-!
# Loyalty points

`update_loyalty` of `api/v1/admin/users.py` one database step at a time, and next
to `edit_user`, which writes the same two columns.
-/

namespace HotelMs

open Tables Runs

/-! ### Requests that read, then commit -/

inductive LoyaltyPhase
  | asked
  | loaded (row : User)
  | committed
  | refused

/-- `credited` is the sum of the deltas committed so far. -/
structure LoyaltySystem where
  store : Store
  phases : ℕ → LoyaltyPhase
  credited : ℤ

def loyaltyRead (s : Store) (token : Bearer) (userId : ℤ) : Except Error User := do
  let user ← getCurrentUser s token
  requireAdmin user
  found (s.users.get userId) userNotFound

-- assigning the value that was loaded writes nothing
def LoyaltyRequest.writeBack (body : LoyaltyRequest) (row u : User) : User :=
  { u with
    loyaltyPoints :=
      if (body.apply row).loyaltyPoints = row.loyaltyPoints then u.loyaltyPoints
      else (body.apply row).loyaltyPoints
    loyaltyTier :=
      if (body.apply row).loyaltyTier = row.loyaltyTier then u.loyaltyTier
      else (body.apply row).loyaltyTier }

section

variable (userId : ℤ) (requests : ℕ → Bearer × LoyaltyRequest)

/-- The next database step of request `i`. -/
def loyaltyStep (y : LoyaltySystem) (i : ℕ) : LoyaltySystem :=
  match y.phases i with
  | .asked =>
    match loyaltyRead y.store (requests i).1 userId with
    | .error _ => { y with phases := Function.update y.phases i .refused }
    | .ok row => { y with phases := Function.update y.phases i (.loaded row) }
  | .loaded row => {
      store := { y.store with
        users := y.store.users.update userId ((requests i).2.writeBack row) }
      phases := Function.update y.phases i .committed
      credited := y.credited + (requests i).2.pointsDelta }
  | .committed | .refused => y

def LoyaltySystem.start (s : Store) : LoyaltySystem := ⟨s, fun _ => .asked, 0⟩

/-- What the commit finds: the points it had read, unless it adds none, and they
do not come out negative. -/
def FindsRead (y : LoyaltySystem) (i : ℕ) : Prop :=
  ∀ row u, y.phases i = .loaded row → y.store.users.get userId = some u →
    0 ≤ row.loyaltyPoints + (requests i).2.pointsDelta ∧
      ((requests i).2.pointsDelta = 0 ∨ u.loyaltyPoints = row.loyaltyPoints)

def HasPoints (y : LoyaltySystem) (points : ℤ) : Prop :=
  ∃ u, y.store.users.get userId = some u ∧ u.loyaltyPoints = points

end

/-! ### One step -/

theorem LoyaltyRequest.writeBack_self (body : LoyaltyRequest) (u : User) :
    body.writeBack u u = body.apply u := by
  have hpoints : (body.writeBack u u).loyaltyPoints = (body.apply u).loyaltyPoints := by
    simp only [writeBack]
    split
    next h => exact h.symm
    next => rfl
  have htier : (body.writeBack u u).loyaltyTier = (body.apply u).loyaltyTier := by
    simp only [writeBack]
    split
    next h => exact h.symm
    next => rfl
  have hback : body.writeBack u u = { u with
      loyaltyPoints := (body.writeBack u u).loyaltyPoints
      loyaltyTier := (body.writeBack u u).loyaltyTier } := rfl
  rw [hback, hpoints, htier]
  rfl

/-- Without a negative result the points written are those found plus the delta,
or those read plus the delta. -/
theorem LoyaltyRequest.writeBack_points (body : LoyaltyRequest) (row u : User)
    (h : 0 ≤ row.loyaltyPoints + body.pointsDelta) :
    (body.writeBack row u).loyaltyPoints =
      if body.pointsDelta = 0 then u.loyaltyPoints
      else row.loyaltyPoints + body.pointsDelta := by
  have hsum : (body.apply row).loyaltyPoints = row.loyaltyPoints + body.pointsDelta :=
    max_eq_right h
  have hsame : row.loyaltyPoints + body.pointsDelta = row.loyaltyPoints ↔ body.pointsDelta = 0 := by
    omega
  simp only [writeBack, hsum, hsame]

section

variable {userId : ℤ} {requests : ℕ → Bearer × LoyaltyRequest} {y : LoyaltySystem} {i : ℕ}

theorem loyaltyRead_eq_ok {s : Store} {token : Bearer} {row : User}
    (h : loyaltyRead s token userId = .ok row) : s.users.get userId = some row := by
  simp only [loyaltyRead, bind_eq_ok, found_eq_ok] at h
  obtain ⟨_, _, _, _, hrow⟩ := h
  exact hrow

inductive LoyaltyMove (userId : ℤ) (requests : ℕ → Bearer × LoyaltyRequest) (y : LoyaltySystem)
    (i : ℕ) : LoyaltySystem → Prop
  | idle (hphase : ∀ row, y.phases i ≠ .loaded row) : LoyaltyMove userId requests y i y
  | refusal (hphase : y.phases i = .asked) : LoyaltyMove userId requests y i
      { y with phases := Function.update y.phases i .refused }
  | read (row : User) (hphase : y.phases i = .asked)
      (hget : y.store.users.get userId = some row) : LoyaltyMove userId requests y i
      { y with phases := Function.update y.phases i (.loaded row) }
  | commit (row : User) (hphase : y.phases i = .loaded row) : LoyaltyMove userId requests y i {
      store := { y.store with
        users := y.store.users.update userId ((requests i).2.writeBack row) }
      phases := Function.update y.phases i .committed
      credited := y.credited + (requests i).2.pointsDelta }

theorem loyaltyStep_move (userId : ℤ) (requests : ℕ → Bearer × LoyaltyRequest)
    (y : LoyaltySystem) (i : ℕ) :
    LoyaltyMove userId requests y i (loyaltyStep userId requests y i) := by
  unfold loyaltyStep
  cases hphase : y.phases i with
  | asked =>
    cases hread : loyaltyRead y.store (requests i).1 userId with
    | error e => exact .refusal hphase
    | ok row => exact .read row hphase (loyaltyRead_eq_ok hread)
  | loaded row => exact .commit row hphase
  | committed => exact .idle (by simp [hphase])
  | refused => exact .idle (by simp [hphase])

/-- A request that runs alone is the endpoint. -/
theorem loyaltyStep_serial {s : Store} {u : User} (hu : s.users.get userId = some u)
    (hfits : userFits s u) (hread : loyaltyRead s (requests i).1 userId = .ok u) :
    (loyaltyStep userId requests (loyaltyStep userId requests (.start s) i) i).store =
      HotelMs.committed s (updateLoyalty s (requests i).1 userId (requests i).2) := by
  have hfirst : loyaltyStep userId requests (.start s) i =
      ⟨s, Function.update (fun _ => .asked) i (.loaded u), 0⟩ := by
    simp only [loyaltyStep, LoyaltySystem.start, hread]
  have hupdate : s.users.update userId ((requests i).2.writeBack u) =
      s.users.update userId (requests i).2.apply := by
    refine Table.rows_ext (List.map_congr_left fun r hr => ?_) rfl
    by_cases hkey : Keyed.key r = userId
    · have hsame : r = u := s.users.eq_of_key hr ((Table.get_eq_some _).mp hu).1
        (hkey.trans ((Table.get_eq_some _).mp hu).2.symm)
      rw [hsame, LoyaltyRequest.writeBack_self]
    · simp only [hkey, decide_false, Bool.false_eq_true, if_false]
  simp only [loyaltyRead, bind_eq_ok, found_eq_ok] at hread
  obtain ⟨caller, hcaller, _, hadmin, _⟩ := hread
  have hendpoint : updateLoyalty s (requests i).1 userId (requests i).2 =
      .ok ((requests i).2.apply u,
        { s with users := s.users.update userId (requests i).2.apply }) :=
    adminEdit_eq_ok.mpr ⟨u, ⟨⟨caller, hcaller, hadmin⟩, hu, hfits⟩, rfl⟩
  rw [hfirst, hendpoint]
  simp only [loyaltyStep, Function.update_self, hupdate, HotelMs.committed]

/-- What is known of the points while requests with deltas that are not negative
run: none is below zero, none is above what has been credited, and once points
are lost no request has still loaded them all. -/
structure Tallied (userId init : ℤ) (y : LoyaltySystem) : Prop where
  total : ∃ points, HasPoints userId y points ∧ 0 ≤ points ∧ points ≤ init + y.credited
  loaded : ∀ j row, y.phases j = .loaded row →
    0 ≤ row.loyaltyPoints ∧ row.loyaltyPoints ≤ init + y.credited ∧
      (HasPoints userId y (init + y.credited) ∨ row.loyaltyPoints < init + y.credited)

theorem HasPoints.unique {p q : ℤ} (h : HasPoints userId y p) (h' : HasPoints userId y q) :
    p = q := by
  obtain ⟨u, hu, rfl⟩ := h
  obtain ⟨v, hv, rfl⟩ := h'
  rw [Option.some.inj (hu.symm.trans hv)]

theorem hasPoints_commit {u : User} (hu : y.store.users.get userId = some u)
    (body : LoyaltyRequest) (row : User) (phases : ℕ → LoyaltyPhase) (credited : ℤ) :
    HasPoints userId ⟨{ y.store with
      users := y.store.users.update userId (body.writeBack row) }, phases, credited⟩
      (body.writeBack row u).loyaltyPoints :=
  ⟨_, get_update_of_get rfl hu, rfl⟩

theorem loaded_before {phases : ℕ → LoyaltyPhase} {phase : LoyaltyPhase} {j : ℕ} {row : User}
    (hphase : ∀ row, phase ≠ .loaded row)
    (h : Function.update phases i phase j = .loaded row) : j ≠ i ∧ phases j = .loaded row := by
  by_cases hji : j = i
  · rw [hji, Function.update_self] at h
    exact absurd h (hphase row)
  · exact ⟨hji, (Function.update_of_ne hji ..).symm.trans h⟩

/-- A committed request with a delta other than zero leaves the points that it had
loaded plus its delta; without one it leaves the points alone. -/
theorem Tallied.points_commit {init : ℤ} (h : Tallied userId init y) {row u : User}
    (hphase : y.phases i = .loaded row) (hu : y.store.users.get userId = some u)
    (hdelta : 0 ≤ (requests i).2.pointsDelta) (phases : ℕ → LoyaltyPhase) (credited : ℤ) :
    HasPoints userId ⟨{ y.store with
      users := y.store.users.update userId ((requests i).2.writeBack row) }, phases, credited⟩
      (if (requests i).2.pointsDelta = 0 then u.loyaltyPoints
        else row.loyaltyPoints + (requests i).2.pointsDelta) := by
  have hrow := (h.loaded i row hphase).1
  have hafter := hasPoints_commit hu (requests i).2 row phases credited
  rw [LoyaltyRequest.writeBack_points _ row u (by omega)] at hafter
  exact hafter

theorem Tallied.step {init : ℤ} (hdelta : ∀ j, 0 ≤ (requests j).2.pointsDelta)
    (h : Tallied userId init y) : Tallied userId init (loyaltyStep userId requests y i) := by
  obtain ⟨points, hpoints, hnonneg, hle⟩ := h.total
  have hmove := loyaltyStep_move userId requests y i
  generalize loyaltyStep userId requests y i = y' at hmove ⊢
  cases hmove with
  | idle => exact h
  | refusal =>
    exact ⟨⟨points, hpoints, hnonneg, hle⟩, fun j row hj =>
      h.loaded j row (loaded_before (fun _ => LoyaltyPhase.noConfusion) hj).2⟩
  | read row hphase hget =>
    refine ⟨⟨points, hpoints, hnonneg, hle⟩, fun j row' hj => ?_⟩
    by_cases hji : j = i
    · subst hji
      cases (Function.update_self ..).symm.trans hj
      have hrow : HasPoints userId y row.loyaltyPoints := ⟨row, hget, rfl⟩
      obtain rfl := hpoints.unique hrow
      refine ⟨hnonneg, hle, ?_⟩
      rcases hle.lt_or_eq with hlt | heq
      · exact Or.inr hlt
      · exact Or.inl (heq ▸ hrow)
    · exact h.loaded j row' ((Function.update_of_ne hji ..).symm.trans hj)
  | commit row hphase =>
    obtain ⟨u, hu, rfl⟩ := hpoints
    obtain ⟨hrow, hrowle, -⟩ := h.loaded i row hphase
    have hd := hdelta i
    have hafter := h.points_commit hphase hu hd
      (Function.update y.phases i .committed) (y.credited + (requests i).2.pointsDelta)
    refine ⟨⟨_, hafter, ?_, ?_⟩, fun j row' hj => ?_⟩
    · split <;> omega
    · dsimp only
      split <;> omega
    · obtain ⟨-, hj⟩ := loaded_before (fun _ => LoyaltyPhase.noConfusion) hj
      obtain ⟨hrow', hle', hlost'⟩ := h.loaded j row' hj
      refine ⟨hrow', by dsimp only; omega, ?_⟩
      by_cases hzero : (requests i).2.pointsDelta = 0
      · rw [if_pos hzero, hzero, add_zero] at hafter
        rw [hzero, add_zero]
        rcases hlost' with hfull | hlt
        · have hsame := hfull.unique ⟨u, hu, rfl⟩
          exact Or.inl (hsame ▸ hafter)
        · exact Or.inr hlt
      · exact Or.inr (by dsimp only; omega)

theorem keeps_of_findsRead {init : ℤ} (h : HasPoints userId y (init + y.credited))
    (hread : FindsRead userId requests y i) :
    HasPoints userId (loyaltyStep userId requests y i)
      (init + (loyaltyStep userId requests y i).credited) := by
  have hmove := loyaltyStep_move userId requests y i
  generalize loyaltyStep userId requests y i = y' at hmove ⊢
  cases hmove with
  | commit row hphase =>
    obtain ⟨u, hu, hpoints⟩ := h
    obtain ⟨hnonneg, hfound⟩ := hread row u hphase hu
    have hafter := hasPoints_commit hu (requests i).2 row
      (Function.update y.phases i .committed) (y.credited + (requests i).2.pointsDelta)
    have hsame : ((requests i).2.writeBack row u).loyaltyPoints =
        init + (y.credited + (requests i).2.pointsDelta) := by
      rw [LoyaltyRequest.writeBack_points _ row u hnonneg]
      split <;> omega
    rw [hsame] at hafter
    exact hafter
  | _ => exact h

/-- Points that were all there after a step were all there before, and the step
was within the condition. -/
theorem findsRead_of_keeps {init : ℤ} (hdelta : ∀ j, 0 ≤ (requests j).2.pointsDelta)
    (htallied : Tallied userId init y)
    (h : HasPoints userId (loyaltyStep userId requests y i)
      (init + (loyaltyStep userId requests y i).credited)) :
    HasPoints userId y (init + y.credited) ∧ FindsRead userId requests y i := by
  have hmove := loyaltyStep_move userId requests y i
  generalize loyaltyStep userId requests y i = y' at hmove h
  cases hmove with
  | idle hphase => exact ⟨h, fun row _ hrow => absurd hrow (hphase row)⟩
  | refusal hphase => exact ⟨h, fun row _ hrow => by rw [hphase] at hrow; cases hrow⟩
  | read row hphase hget => exact ⟨h, fun row _ hrow => by rw [hphase] at hrow; cases hrow⟩
  | commit row hphase =>
    obtain ⟨_, ⟨u, hu, rfl⟩, _, _⟩ := htallied.total
    obtain ⟨hrow, _, hlost⟩ := htallied.loaded i row hphase
    have hd := hdelta i
    have htotal := (htallied.points_commit hphase hu hd
      (Function.update y.phases i .committed) (y.credited + (requests i).2.pointsDelta)).unique h
    dsimp only at htotal
    have hfull : u.loyaltyPoints = init + y.credited ∧
        ((requests i).2.pointsDelta = 0 ∨ u.loyaltyPoints = row.loyaltyPoints) := by
      by_cases hzero : (requests i).2.pointsDelta = 0
      · rw [if_pos hzero] at htotal
        exact ⟨by omega, Or.inl hzero⟩
      · rw [if_neg hzero] at htotal
        rcases hlost with hfull | hlt
        · have hsame := hfull.unique ⟨u, hu, rfl⟩
          exact ⟨hsame.symm, Or.inr (by omega)⟩
        · omega
    refine ⟨⟨u, hu, hfull.1⟩, fun row' v hrow' hv => ?_⟩
    cases hphase.symm.trans hrow'
    obtain rfl := Option.some.inj (hu.symm.trans hv)
    exact ⟨by omega, hfull.2⟩

/-! ### The sum of the deltas -/

def LoyaltyPhase.isCommitted : LoyaltyPhase → Bool
  | .committed => true
  | _ => false

def committedSum (requests : ℕ → Bearer × LoyaltyRequest) (phases : ℕ → LoyaltyPhase)
    (F : Finset ℕ) : ℤ :=
  ∑ j ∈ F, if (phases j).isCommitted then (requests j).2.pointsDelta else 0

theorem committedSum_update (requests : ℕ → Bearer × LoyaltyRequest) {F : Finset ℕ} (hi : i ∈ F)
    (phases : ℕ → LoyaltyPhase) (hphase : (phases i).isCommitted = false)
    (phase : LoyaltyPhase) :
    committedSum requests (Function.update phases i phase) F =
      committedSum requests phases F +
        if phase.isCommitted then (requests i).2.pointsDelta else 0 := by
  have hrest : ∀ j ∈ F.erase i,
      (if (Function.update phases i phase j).isCommitted then (requests j).2.pointsDelta else 0) =
        if (phases j).isCommitted then (requests j).2.pointsDelta else 0 := by
    intro j hj
    rw [Function.update_of_ne (Finset.ne_of_mem_erase hj)]
  unfold committedSum
  rw [← Finset.add_sum_erase F _ hi, ← Finset.add_sum_erase F _ hi, Finset.sum_congr rfl hrest,
    Function.update_self, hphase, add_comm]
  simp

theorem credited_step {F : Finset ℕ} (hi : i ∈ F)
    (h : y.credited = committedSum requests y.phases F) :
    (loyaltyStep userId requests y i).credited =
      committedSum requests (loyaltyStep userId requests y i).phases F := by
  have hmove := loyaltyStep_move userId requests y i
  generalize loyaltyStep userId requests y i = y' at hmove ⊢
  cases hmove with
  | idle => exact h
  | refusal hphase =>
    have hsum := committedSum_update requests hi y.phases (by rw [hphase]; rfl) .refused
    rw [hsum]
    simpa [LoyaltyPhase.isCommitted] using h
  | read row hphase hget =>
    have hsum := committedSum_update requests hi y.phases (by rw [hphase]; rfl) (.loaded row)
    rw [hsum]
    simpa [LoyaltyPhase.isCommitted] using h
  | commit row hphase =>
    have hsum := committedSum_update requests hi y.phases (by rw [hphase]; rfl) .committed
    rw [hsum, ← h]
    rfl

theorem credited_run (s : Store) {F : Finset ℕ} {es : List ℕ} (hes : ∀ i ∈ es, i ∈ F)
    (hdone : ∀ i ∈ F, ((run (loyaltyStep userId requests) (.start s) es).phases i).isCommitted =
      true) :
    (run (loyaltyStep userId requests) (.start s) es).credited =
      ∑ i ∈ F, (requests i).2.pointsDelta := by
  have hstart : (LoyaltySystem.start s).credited =
      committedSum requests (LoyaltySystem.start s).phases F := by
    simp [LoyaltySystem.start, committedSum, LoyaltyPhase.isCommitted]
  have hin : Along (loyaltyStep userId requests) (fun _ i => i ∈ F) (.start s) es :=
    along_of_forall fun _ i hi => hes i hi
  have hrun := run_invariant (I := fun y => y.credited = committedSum requests y.phases F)
    (fun _ _ h hi => credited_step hi h) hstart hin
  rw [hrun]
  exact Finset.sum_congr rfl fun i hi => if_pos (hdone i hi)

end

/-! ### Runs -/

/-- Requests that have all committed have added up exactly if each found what it
had read; from a negative start that is enough. -/
theorem loyalty_points_iff (s : Store) (userId : ℤ) (u : User) (hu : s.users.get userId = some u)
    (requests : ℕ → Bearer × LoyaltyRequest) (hdelta : ∀ i, 0 ≤ (requests i).2.pointsDelta)
    (F : Finset ℕ) (es : List ℕ) (hes : ∀ i ∈ es, i ∈ F)
    (hdone : ∀ i ∈ F, ((run (loyaltyStep userId requests) (.start s) es).phases i).isCommitted =
      true) :
    (Along (loyaltyStep userId requests) (FindsRead userId requests) (.start s) es →
      HasPoints userId (run (loyaltyStep userId requests) (.start s) es)
        (u.loyaltyPoints + ∑ i ∈ F, (requests i).2.pointsDelta)) ∧
    (0 ≤ u.loyaltyPoints →
      HasPoints userId (run (loyaltyStep userId requests) (.start s) es)
        (u.loyaltyPoints + ∑ i ∈ F, (requests i).2.pointsDelta) →
      Along (loyaltyStep userId requests) (FindsRead userId requests) (.start s) es) := by
  have hstart : HasPoints userId (.start s) (u.loyaltyPoints + (LoyaltySystem.start s).credited) :=
    ⟨u, hu, (add_zero _).symm⟩
  rw [← credited_run s hes hdone]
  constructor
  · intro halong
    exact run_invariant (I := fun y => HasPoints userId y (u.loyaltyPoints + y.credited))
      (fun _ _ h hread => keeps_of_findsRead h hread) hstart halong
  · intro hinit hfinal
    have htallied : Tallied userId u.loyaltyPoints (.start s) :=
      ⟨⟨u.loyaltyPoints, ⟨u, hu, rfl⟩, hinit, (add_zero _).ge⟩, fun j row hj => by cases hj⟩
    have halways := (run_iff_always
      (I := fun y => HasPoints userId y (u.loyaltyPoints + y.credited))
      (fun _ _ hJ h => (findsRead_of_keeps hdelta hJ h).1) (fun _ _ hJ => hJ.step hdelta)
      htallied).mp hfinal
    refine (always_iff_along (J := Tallied userId u.loyaltyPoints) (Q := fun _ _ => True)
      (fun _ _ hJ => hJ.step hdelta) (fun _ _ hJ _ h => ?_)
      (along_of_forall fun _ _ _ => trivial) htallied hstart).mp halways
    exact ⟨fun hnext => (findsRead_of_keeps hdelta hJ hnext).2, keeps_of_findsRead h⟩

def tenPoints (_ : ℕ) : Bearer × LoyaltyRequest := (some 3, ⟨10, none⟩)

theorem loyalty_points_iff_serial :
    HasPoints 1 (run (loyaltyStep 1 tenPoints) (.start sampleStore) [0, 0, 1, 1]) (0 + (10 + 10)) ↔
      Along (loyaltyStep 1 tenPoints) (FindsRead 1 tenPoints) (.start sampleStore)
        [0, 0, 1, 1] := by
  have hu : sampleStore.users.get 1 = some { sampleUser .guest "a@x.org" none with id := 1 } := by
    decide +kernel
  have hdelta : ∀ i, 0 ≤ (tenPoints i).2.pointsDelta := fun _ => show (0 : ℤ) ≤ 10 by decide
  have hboth := loyalty_points_iff sampleStore 1 _ hu tenPoints hdelta {0, 1} [0, 0, 1, 1]
    (by decide) (by decide +kernel)
  exact ⟨hboth.2 (by decide), hboth.1⟩

theorem loyalty_points_lost :
    HasPoints 1 (run (loyaltyStep 1 tenPoints) (.start sampleStore) [0, 1, 0, 1]) 10 ∧
    ¬HasPoints 1 (run (loyaltyStep 1 tenPoints) (.start sampleStore) [0, 1, 0, 1])
      (0 + (10 + 10)) := by
  have hten : (((run (loyaltyStep 1 tenPoints) (.start sampleStore) [0, 1, 0, 1]).store.users.get
      1).map User.loyaltyPoints) = some 10 := by decide +kernel
  obtain ⟨u, hu, hpoints⟩ := Option.map_eq_some_iff.mp hten
  have hlost : HasPoints 1 (run (loyaltyStep 1 tenPoints) (.start sampleStore) [0, 1, 0, 1]) 10 :=
    ⟨u, hu, hpoints⟩
  exact ⟨hlost, fun h => absurd (hlost.unique h) (by decide)⟩

/-! ### Points and tier -/

def Request.LeavesTier (userId : ℤ) : Request → Prop
  | .user (.loyalty k body) => k = userId → orElse body.tier "" = ""
  | .user (.edit k data) => k = userId → data.loyaltyTier = none
  | _ => True

/-- The tier is that of the points, and these are not negative. -/
def User.TierFits (u : User) : Prop :=
  0 ≤ u.loyaltyPoints ∧ u.loyaltyTier = loyaltyTierOf u.loyaltyPoints

def TierFollows (userId : ℤ) (s : Store) : Prop :=
  ∀ u, s.users.get userId = some u → u.TierFits

/-- An edit that goes through sets points of the tier that the user has already. -/
def EditKeepsTier (ext : Ext) (userId : ℤ) (s : Store) (c : Call) : Prop :=
  match c.request with
  | .user (.edit k data) => k = userId → ∀ u role, Edits ext s c.token k data u role →
      ∀ points ∈ data.loyaltyPoints, 0 ≤ points ∧ loyaltyTierOf points = u.loyaltyTier
  | _ => True

section

variable {ext : Ext} {userId : ℤ} {s : Store} {c : Call}

theorem LoyaltyRequest.apply_tierFits {body : LoyaltyRequest} (h : orElse body.tier "" = "")
    (u : User) : (body.apply u).TierFits := by
  refine ⟨le_max_left _ _, ?_⟩
  unfold orElse at h
  simp only [apply, orElse]
  cases hfilter : body.tier.filter (· ≠ "") with
  | none => rfl
  | some tier =>
    have hempty : tier = "" := by
      rw [hfilter] at h
      exact h
    have hne := (Option.filter_eq_some_iff.mp hfilter).2
    simp [hempty] at hne

/-- Of the requests about one row, only the loyalty update touches its points. -/
theorem UserRequest.change_tierFits {r : UserRequest} {k : ℤ} {f : User → User} {u : User}
    (h : r.change = some (k, f)) (hleaves : (Request.user r).LeavesTier k) (hu : u.TierFits) :
    (f u).TierFits := by
  cases r with
  | loyalty j body =>
    obtain ⟨rfl, rfl⟩ := Prod.mk.inj (Option.some.inj h)
    exact body.apply_tierFits (hleaves rfl) u
  | ban j body =>
    obtain ⟨_, rfl⟩ := Prod.mk.inj (Option.some.inj h)
    exact hu
  | toggleVip j =>
    obtain ⟨_, rfl⟩ := Prod.mk.inj (Option.some.inj h)
    exact hu
  | segment j label =>
    obtain ⟨_, rfl⟩ := Prod.mk.inj (Option.some.inj h)
    exact hu
  | blacklist j body =>
    obtain ⟨_, rfl⟩ := Prod.mk.inj (Option.some.inj h)
    exact hu
  | _ => cases h

theorem tierFollows_handle (hlt : userId < s.users.next) (h : TierFollows userId s)
    (hleaves : c.request.LeavesTier userId)
    (hedit : ∀ data, c.request ≠ .user (.edit userId data)) :
    TierFollows userId (handle ext s c) := by
  intro u' hu'
  have hwrite := handle_userWrite ext s c
  obtain ⟨env, token, r⟩ := c
  generalize (handle ext s ⟨env, token, r⟩).users = users at hwrite hu'
  cases hwrite with
  | same => exact h u' hu'
  | added u hadds hfits => exact h u' (get_insert_user hlt.ne hu')
  | changed k f hchanges =>
    obtain ⟨u, hu, rfl⟩ := get_update_user hchanges.id_eq hu'
    split
    next hk =>
      subst hk
      cases hchanges with
      | edited _ data v role hedits => exact absurd rfl (hedit data)
      | managed r _ f v hchange hmanages =>
        exact UserRequest.change_tierFits hchange hleaves (h u hu)
      | _ => exact h u hu
    next => exact h u hu
  | removed j k hr =>
    rw [Table.get_delete] at hu'
    split at hu'
    · cases hu'
    · exact h u' hu'

theorem edited_tierFits_iff (ext : Ext) {data : UserAdminUpdate} (role : Option Role) {u : User}
    (htier : data.loyaltyTier = none) (hu : u.TierFits) :
    (data.apply ext role u).TierFits ↔
      ∀ points ∈ data.loyaltyPoints, 0 ≤ points ∧ loyaltyTierOf points = u.loyaltyTier := by
  unfold User.TierFits UserAdminUpdate.apply
  rw [htier]
  cases hpoints : data.loyaltyPoints with
  | none => exact iff_of_true hu fun _ h => by cases h
  | some points =>
    simp only [Option.getD_some, Option.getD_none, Option.mem_some_iff, forall_eq',
      @eq_comm _ u.loyaltyTier]

theorem tierFollows_editUser_iff (h : TierFollows userId s) {token : Bearer}
    {data : UserAdminUpdate} (htier : data.loyaltyTier = none) :
    TierFollows userId (committed s (editUser ext s token userId data)) ↔
      ∀ u role, Edits ext s token userId data u role → ∀ points ∈ data.loyaltyPoints,
        0 ≤ points ∧ loyaltyTierOf points = u.loyaltyTier := by
  cases hx : editUser ext s token userId data with
  | error e =>
    refine iff_of_true h fun u role hedits => ?_
    rw [editUser_eq_ok.mpr ⟨u, role, hedits, rfl⟩] at hx
    cases hx
  | ok a =>
    obtain ⟨u, role, hedits, rfl⟩ := editUser_eq_ok.mp hx
    have hrow := edited_tierFits_iff ext role htier (h u hedits.target)
    have hget : (s.users.update userId (data.apply ext role)).get userId =
        some (data.apply ext role u) := get_update_of_get rfl hedits.target
    constructor
    · intro hnext v role' hedits'
      obtain rfl := Option.some.inj (hedits.target.symm.trans hedits'.target)
      exact hrow.mp (hnext _ hget)
    · intro hall v hv
      obtain rfl := Option.some.inj (hget.symm.trans hv)
      exact hrow.mpr (hall u role hedits)

theorem tierFollows_step_iff (hlt : userId < s.users.next) (h : TierFollows userId s)
    (hleaves : c.request.LeavesTier userId) :
    TierFollows userId (handle ext s c) ↔ EditKeepsTier ext userId s c := by
  by_cases hedit : ∃ data, c.request = .user (.edit userId data)
  · obtain ⟨data, hr⟩ := hedit
    obtain ⟨env, token, r⟩ := c
    obtain rfl : r = .user (.edit userId data) := hr
    have hstore : handle ext s ⟨env, token, .user (.edit userId data)⟩ =
        committed s (editUser ext s token userId data) := rfl
    rw [hstore, tierFollows_editUser_iff h (hleaves rfl)]
    exact ⟨fun hall _ => hall, fun hall => hall rfl⟩
  · have hother : ∀ data, c.request ≠ .user (.edit userId data) := fun data hr =>
      hedit ⟨data, hr⟩
    refine iff_of_true (tierFollows_handle hlt h hleaves hother) ?_
    unfold EditKeepsTier
    split
    next k data hr =>
      rintro rfl
      exact absurd hr (hother data)
    next => trivial

end

/-- Without an override the tier of a user follows the points throughout a run
exactly if each edit sets points of the tier that the user has by then. -/
theorem tier_follows_iff (ext : Ext) (userId : ℤ) (s : Store) (u : User)
    (hu : s.users.get userId = some u) (hfits : u.TierFits) (cs : List Call)
    (hleaves : ∀ c ∈ cs, c.request.LeavesTier userId) :
    Always (handle ext) (TierFollows userId) s cs ↔
      Along (handle ext) (EditKeepsTier ext userId) s cs := by
  have hlt : userId < s.users.next := by
    obtain ⟨hmem, rfl⟩ := (Table.get_eq_some _).mp hu
    exact s.users.below u hmem
  have hstart : TierFollows userId s := fun v hv => Option.some.inj (hu.symm.trans hv) ▸ hfits
  exact always_iff_along (J := fun t => userId < t.users.next)
    (fun t c hJ => hJ.trans_le (handle_userWrite ext t c).next_le)
    (fun _ _ hJ hQ hI => tierFollows_step_iff hJ hI hQ)
    (along_of_forall fun _ c hc => hleaves c hc) hlt hstart

def bronzeStore : Store :=
  act sampleExt sampleStore (asks 3 (.user (.loyalty 1 ⟨10, none⟩)))

def setPoints (points : ℤ) : Call :=
  ⟨sampleEnv "txn_1", some 3,
    .user (.edit 1 ⟨none, none, none, none, none, some points, none, none, none⟩)⟩

theorem bronzeStore_tierFits : ∃ u, bronzeStore.users.get 1 = some u ∧ u.TierFits := by
  have hrow : (bronzeStore.users.get 1).any (fun u => decide (0 ≤ u.loyaltyPoints) &&
      u.loyaltyTier == loyaltyTierOf u.loyaltyPoints) = true := by decide +kernel
  obtain ⟨u, hu, hfits⟩ := (Option.any_eq_true _ _).mp hrow
  obtain ⟨hnonneg, htier⟩ := Bool.and_eq_true_iff.mp hfits
  exact ⟨u, hu, of_decide_eq_true hnonneg, eq_of_beq htier⟩

theorem tier_follows_iff_small :
    Always (handle sampleExt) (TierFollows 1) bronzeStore [setPoints 20] ↔
      Along (handle sampleExt) (EditKeepsTier sampleExt 1) bronzeStore [setPoints 20] := by
  obtain ⟨u, hu, hfits⟩ := bronzeStore_tierFits
  refine tier_follows_iff sampleExt 1 bronzeStore u hu hfits [setPoints 20] fun c hc => ?_
  obtain rfl := List.mem_singleton.mp hc
  exact fun _ => rfl

theorem edit_leaves_tier : (∃ u, bronzeStore.users.get 1 = some u ∧ u.TierFits) ∧
    (∀ c ∈ [setPoints 6000], c.request.LeavesTier 1) ∧
    ¬Always (handle sampleExt) (TierFollows 1) bronzeStore [setPoints 6000] := by
  refine ⟨bronzeStore_tierFits, fun c hc => ?_, fun h => ?_⟩
  · obtain rfl := List.mem_singleton.mp hc
    exact fun _ => rfl
  · have hrow : ((handle sampleExt bronzeStore (setPoints 6000)).users.get 1).any (fun u =>
        u.loyaltyTier != loyaltyTierOf u.loyaltyPoints) = true := by decide +kernel
    obtain ⟨u, hu, hbad⟩ := (Option.any_eq_true _ _).mp hrow
    exact absurd (h.2 u hu).2 (bne_iff_ne.mp hbad)

end HotelMs
