import HotelMs.Api
import HotelMs.Lib.ReadThrough

/-!
# The availability cache

`services/cache.py`, the search of `api/v1/public/search.py`, the warm-up of
`tasks/batch_tasks.py`, and what creating and cancelling a booking delete. Redis
answers; an entry can expire at any time.
-/

namespace HotelMs

open Tables ReadThrough

/-! ### Keys and dates -/

structure AvailKey where
  hotelId : ℤ
  checkIn : ℤ
  checkOut : ℤ
  deriving DecidableEq

/-- `date.min.toordinal()`. -/
def dateMin : ℤ := 1

/-- `date.max.toordinal()`. -/
def dateMax : ℤ := 3652059

def IsDate (d : ℤ) : Prop := dateMin ≤ d ∧ d ≤ dateMax

instance (d : ℤ) : Decidable (IsDate d) := inferInstanceAs (Decidable (_ ∧ _))

/-- `d + timedelta(days=n)`, `none` for the `OverflowError`. -/
def addDays (d n : ℤ) : Option ℤ := if IsDate (d + n) then some (d + n) else none

/-! ### Filling and reading -/

/-- The ids are cached as a JSON text, and `"[]"` is a hit too. -/
abbrev AvailCache := Cache AvailKey (List ℤ)

def availableIds (s : Store) (k : AvailKey) : List ℤ :=
  (getAvailableRooms s k.hotelId k.checkIn k.checkOut).map Room.id

/-- The rooms of a cache hit, by primary key. -/
def cachedRooms (s : Store) (ids : List ℤ) : List Room :=
  s.rooms.select fun r => ids.contains r.id && r.isActive

structure RoomSearchResponse where
  room : Room
  roomType : Option RoomType
  totalPrice : ℚ
  deriving DecidableEq

def searchedRooms (s : Store) (cache : AvailCache) (k : AvailKey) : List Room :=
  match cache k with
  | some cachedIds => cachedRooms s cachedIds
  | none => getAvailableRooms s k.hotelId k.checkIn k.checkOut

def searchAvailableRooms (s : Store) (cache : AvailCache) (k : AvailKey) :
    List RoomSearchResponse × AvailCache :=
  let results := (searchedRooms s cache k).map fun room =>
    ⟨room, s.roomTypes.get room.roomTypeId, calculateBookingPrice s room k.checkIn k.checkOut⟩
  match cache k with
  | some _ => (results, cache)
  | none => (results, put cache k (availableIds s k))

/-- The rounds of the two nested loops, an overflowing date ends the task. -/
def warmupLoop (s : Store) (today : ℤ) : List (ℤ × ℤ) → AvailCache → AvailCache
  | [], cache => cache
  | (hotelId, delta) :: rounds, cache =>
    match addDays today delta with
    | none => cache
    | some ci =>
      match addDays ci 1 with
      | none => cache
      | some co =>
        let k := ⟨hotelId, ci, co⟩
        warmupLoop s today rounds (put cache k (availableIds s k))

def hourlyCacheWarmup (s : Store) (today : ℤ) (cache : AvailCache) : AvailCache :=
  warmupLoop s today (s.hotels.rows.flatMap fun h => [0, 1, 2, 3, 4, 5, 6].map fun d => (h.id, d))
    cache

/-! ### Invalidation -/

/-- One round a `delta`; an overflowing date ends the loop, the error is logged. -/
def invalidateLoop (hotelId checkIn checkOut : ℤ) : List ℤ → AvailCache → AvailCache
  | [], cache => cache
  | delta :: deltas, cache =>
    match addDays checkIn delta with
    | none => cache
    | some ci =>
      let cache := drop cache ⟨hotelId, ci, checkOut⟩
      match addDays checkOut delta with
      | none => cache
      | some co =>
        invalidateLoop hotelId checkIn checkOut deltas (drop cache ⟨hotelId, checkIn, co⟩)

def invalidateAvailability (cache : AvailCache) (hotelId checkIn checkOut : ℤ) : AvailCache :=
  invalidateLoop hotelId checkIn checkOut [-1, 0, 1] cache

/-- The booking for which a guest's request reaches `invalidate_availability`. -/
def bookingChange (s : Store) : Action → Option Booking
  | .call ⟨env, token, .guest (.createBooking data)⟩ =>
    (createBookingEndpoint env s token data).toOption.map Prod.fst
  | .call ⟨_, token, .guest (.cancelBooking bookingId)⟩ =>
    (cancelBookingEndpoint s token bookingId).toOption.map Prod.fst
  | _ => none

/-- The database and Redis. -/
structure World where
  store : Store
  cache : AvailCache

def World.act (ext : Ext) (w : World) (a : Action) : World where
  store := HotelMs.act ext w.store a
  cache :=
    match bookingChange w.store a with
    | none => w.cache
    | some b => invalidateAvailability w.cache b.hotelId b.checkIn b.checkOut

inductive CacheEvent
  | act (a : Action)
  | search (k : AvailKey)
  | warmup (today : ℤ)
  | expire (k : AvailKey)

def World.step (ext : Ext) (w : World) : CacheEvent → World
  | .act a => w.act ext a
  | .search k => { w with cache := (searchAvailableRooms w.store w.cache k).2 }
  | .warmup today => { w with cache := hourlyCacheWarmup w.store today w.cache }
  | .expire k => { w with cache := drop w.cache k }

/-! ### Which keys an invalidation deletes -/

theorem addDays_eq_some {d n e : ℤ} : addDays d n = some e ↔ IsDate e ∧ e = d + n := by
  unfold addDays
  split
  next h =>
    constructor
    · intro he
      cases he
      exact ⟨h, rfl⟩
    · intro he
      rw [he.2]
  next h =>
    refine iff_of_false nofun ?_
    rintro ⟨he, rfl⟩
    exact h he

theorem addDays_of_isDate {d n : ℤ} (h : IsDate (d + n)) : addDays d n = some (d + n) :=
  addDays_eq_some.mpr ⟨h, rfl⟩

theorem addDays_eq_none {d n : ℤ} : addDays d n = none ↔ ¬IsDate (d + n) := by
  unfold addDays
  split
  next h => exact iff_of_false nofun (not_not_intro h)
  next h => exact iff_of_true rfl h

theorem invalidateLoop_sub (hotelId checkIn checkOut : ℤ) (deltas : List ℤ) (cache : AvailCache) :
    Sub (invalidateLoop hotelId checkIn checkOut deltas cache) cache := by
  induction deltas generalizing cache with
  | nil => exact Sub.refl cache
  | cons delta deltas ih =>
    unfold invalidateLoop
    split
    · exact Sub.refl cache
    next ci _ =>
      have hfirst : Sub (drop cache ⟨hotelId, ci, checkOut⟩) cache := drop_sub _ _
      simp only
      split
      · exact hfirst
      next co _ => exact (ih _).trans ((drop_sub _ _).trans hfirst)

theorem invalidateAvailability_sub (cache : AvailCache) (hotelId checkIn checkOut : ℤ) :
    Sub (invalidateAvailability cache hotelId checkIn checkOut) cache :=
  invalidateLoop_sub hotelId checkIn checkOut [-1, 0, 1] cache

/-- The window keeps one end of the stay and moves the other by a day at most. -/
def AvailKey.Near (k : AvailKey) (checkIn checkOut : ℤ) : Prop :=
  (k.checkOut = checkOut ∧ |k.checkIn - checkIn| ≤ 1) ∨
    (k.checkIn = checkIn ∧ |k.checkOut - checkOut| ≤ 1)

instance (k : AvailKey) (checkIn checkOut : ℤ) : Decidable (k.Near checkIn checkOut) :=
  inferInstanceAs (Decidable (_ ∨ _))

theorem AvailKey.near_iff {k : AvailKey} {checkIn checkOut : ℤ} :
    k.Near checkIn checkOut ↔
      (k.checkOut = checkOut ∧
        (k.checkIn = checkIn + -1 ∨ k.checkIn = checkIn ∨ k.checkIn = checkIn + 1)) ∨
      (k.checkIn = checkIn ∧
        (k.checkOut = checkOut + -1 ∨ k.checkOut = checkOut ∨ k.checkOut = checkOut + 1)) := by
  unfold AvailKey.Near
  rw [abs_le, abs_le]
  omega

theorem availKey_eq_iff {k : AvailKey} {hotelId checkIn checkOut : ℤ} :
    k = ⟨hotelId, checkIn, checkOut⟩ ↔
      k.hotelId = hotelId ∧ k.checkIn = checkIn ∧ k.checkOut = checkOut := by
  cases k
  simp only [AvailKey.mk.injEq]

def AvailKey.IsWindow (k : AvailKey) : Prop := IsDate k.checkIn ∧ IsDate k.checkOut

instance (k : AvailKey) : Decidable k.IsWindow := inferInstanceAs (Decidable (_ ∧ _))

/-- On the first of all dates `check_in + timedelta(days=-1)` raises at once. -/
theorem invalidateAvailability_of_first {cache : AvailCache} {hotelId checkIn checkOut : ℤ}
    (h : ¬dateMin < checkIn) :
    invalidateAvailability cache hotelId checkIn checkOut = cache := by
  have hprev : addDays checkIn (-1) = none := by
    rw [addDays_eq_none]
    intro hdate
    have hge := hdate.1
    omega
  simp only [invalidateAvailability, invalidateLoop, hprev]

/-- What is gone after an invalidation for a stay: the windows near the stay,
unless it starts on the first of all dates, where the first round already fails. -/
theorem invalidateAvailability_eq_none {cache : AvailCache} {hotelId checkIn checkOut : ℤ}
    {k : AvailKey} (hin : IsDate checkIn) (hout : IsDate checkOut) (hstay : checkIn < checkOut)
    (hk : k.IsWindow) :
    invalidateAvailability cache hotelId checkIn checkOut k = none ↔
      (dateMin < checkIn ∧ k.hotelId = hotelId ∧ k.Near checkIn checkOut) ∨ cache k = none := by
  obtain ⟨hin₁, hin₂⟩ := hin
  obtain ⟨hout₁, hout₂⟩ := hout
  have hsame : ∀ d, dateMin ≤ d → d ≤ dateMax → addDays d 0 = some (d + 0) := by
    intro d h₁ h₂
    exact addDays_of_isDate ⟨by omega, by omega⟩
  have hinSame := hsame checkIn hin₁ hin₂
  have houtSame := hsame checkOut hout₁ hout₂
  have hinNext : addDays checkIn 1 = some (checkIn + 1) := addDays_of_isDate ⟨by omega, by omega⟩
  have houtPrev : addDays checkOut (-1) = some (checkOut + -1) :=
    addDays_of_isDate ⟨by omega, by omega⟩
  by_cases hmin : dateMin < checkIn
  · have hinPrev : addDays checkIn (-1) = some (checkIn + -1) :=
      addDays_of_isDate ⟨by omega, by omega⟩
    simp only [invalidateAvailability, invalidateLoop, hinPrev, hinSame, hinNext, houtPrev,
      houtSame]
    cases hlast : addDays checkOut 1 with
    | some co =>
      obtain ⟨_, rfl⟩ := addDays_eq_some.mp hlast
      simp only [drop_eq_none, availKey_eq_iff, AvailKey.near_iff]
      grind
    | none =>
      -- the key the last round does not reach is no window of dates
      have hend : k.checkOut ≠ checkOut + 1 := by
        intro he
        rw [addDays_eq_none, ← he] at hlast
        exact hlast hk.2
      simp only [drop_eq_none, availKey_eq_iff, AvailKey.near_iff]
      grind
  · rw [invalidateAvailability_of_first hmin]
    simp only [hmin, false_and, false_or]

/-! ### Which windows a booking touches -/

def Booking.SharesNight (b : Booking) (k : AvailKey) : Prop :=
  k.hotelId = b.hotelId ∧ ∃ night ∈ b.stay, night ∈ Set.Ico k.checkIn k.checkOut

theorem World.act_cache {ext : Ext} {w : World} {a : Action} {b : Booking}
    (h : bookingChange w.store a = some b) :
    (w.act ext a).cache = invalidateAvailability w.cache b.hotelId b.checkIn b.checkOut := by
  simp only [World.act, h]

/-- The entries left after a booking was made or cancelled are none of an
overlapping window, exactly when all of these were near the stay before. -/
theorem invalidation_covers_iff (ext : Ext) (w : World) (a : Action) (b : Booking)
    (h : bookingChange w.store a = some b) (hin : IsDate b.checkIn) (hout : IsDate b.checkOut) :
    (∀ k : AvailKey, k.IsWindow → b.SharesNight k → (w.act ext a).cache k = none) ↔
      ∀ k : AvailKey, k.IsWindow → b.SharesNight k → w.cache k ≠ none →
        dateMin < b.checkIn ∧ k.Near b.checkIn b.checkOut := by
  have hgone : ∀ k : AvailKey, k.IsWindow → b.SharesNight k →
      ((w.act ext a).cache k = none ↔
        (dateMin < b.checkIn ∧ k.Near b.checkIn b.checkOut) ∨ w.cache k = none) := by
    intro k hk hshare
    obtain ⟨hhotel, night, hnight, _⟩ := hshare
    have hstay : b.checkIn < b.checkOut := lt_of_le_of_lt hnight.1 hnight.2
    rw [World.act_cache h, invalidateAvailability_eq_none hin hout hstay hk]
    simp only [hhotel, true_and]
  constructor
  · intro hall k hk hshare hcached
    rcases (hgone k hk hshare).mp (hall k hk hshare) with hnear | hnone
    · exact hnear
    · exact absurd hnone hcached
  · intro hall k hk hshare
    rw [hgone k hk hshare]
    by_cases hcached : w.cache k = none
    · exact Or.inr hcached
    · exact Or.inl (hall k hk hshare hcached)

def coldWorld (s : Store) : World := ⟨s, fun _ => none⟩

/-- The cache holds the one entry of this search. -/
def searchedWorld (s : Store) (k : AvailKey) : World := (coldWorld s).step sampleExt (.search k)

def sampleBooks : Action := asks 1 (.guest (.createBooking sampleStay))

def sampleBooking : Booking := ⟨1, 1, 1, 1, 10, 12, 1, 0, none, 200, .pending, 0⟩

theorem searchedWorld_cache {s : Store} {k k' : AvailKey}
    (h : (searchedWorld s k).cache k' ≠ none) : k' = k := by
  by_contra hne
  apply h
  show put (coldWorld s).cache k (availableIds s k) k' = none
  rw [put_apply, if_neg hne]
  rfl

theorem sampleBooks_change (k : AvailKey) :
    bookingChange (searchedWorld sampleStore k).store sampleBooks = some sampleBooking := by
  show bookingChange sampleStore sampleBooks = some sampleBooking
  decide +kernel

theorem invalidation_covers_iff_exact :
    (searchedWorld sampleStore ⟨1, 10, 12⟩).cache ⟨1, 10, 12⟩ = some [1] ∧
    ∀ k : AvailKey, k.IsWindow → sampleBooking.SharesNight k →
      ((searchedWorld sampleStore ⟨1, 10, 12⟩).act sampleExt sampleBooks).cache k = none := by
  refine ⟨by decide +kernel, (invalidation_covers_iff sampleExt
    (searchedWorld sampleStore ⟨1, 10, 12⟩) sampleBooks sampleBooking (sampleBooks_change _)
    (by decide) (by decide)).mpr ?_⟩
  intro k _ _ hcached
  rw [searchedWorld_cache hcached]
  decide +kernel

def longSearch : World := searchedWorld sampleStore ⟨1, 9, 14⟩

theorem longer_window_survives :
    bookingChange longSearch.store sampleBooks = some sampleBooking ∧
    sampleBooking.SharesNight ⟨1, 9, 14⟩ ∧
    longSearch.cache ⟨1, 9, 14⟩ = some [1] ∧
    (longSearch.act sampleExt sampleBooks).cache ⟨1, 9, 14⟩ = some [1] ∧
    availableIds (longSearch.act sampleExt sampleBooks).store ⟨1, 9, 14⟩ = [] := by
  have hnight : sampleBooking.SharesNight ⟨1, 9, 14⟩ :=
    ⟨rfl, 10, ⟨by decide, by decide⟩, ⟨by decide, by decide⟩⟩
  exact ⟨sampleBooks_change _, hnight, by decide +kernel, by decide +kernel, by decide +kernel⟩

end HotelMs
