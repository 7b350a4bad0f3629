import HotelMs.Guests
import HotelMs.Api
import HotelMs.Lib.Interleave

/-!
# Reviews submitted at the same time

`submit_review` makes two checks, each a query of its own, and inserts after the
second one. No constraint of `reviews` speaks of the user and the hotel
together. `edit_review` and `remove_review` read the row and then commit.
-/

namespace HotelMs

open Tables Runs Interleave

inductive ReviewTask
  | submitting (token : Bearer) (data : ReviewCreate)
  | eligible (userId : ℤ) (data : ReviewCreate)
  | cleared (userId : ℤ) (data : ReviewCreate)
  | editing (token : Bearer) (reviewId : ℤ) (data : ReviewUpdate)
  | edited (review : Review) (data : ReviewUpdate)
  | removing (token : Bearer) (reviewId : ℤ)
  | removed (review : Review)
  | done

/-- The user, the rating, and the query for a completed booking. -/
def submitChecks (s : Store) (token : Bearer) (data : ReviewCreate) : Except Error User := do
  let user ← getCurrentUser s token
  ensure (ratingRange data.rating) (.http 400 "Rating must be between 1 and 5")
  ensure (s.bookings.any (fun b =>
      b.userId = user.id && b.hotelId = data.hotelId && b.status = .completed) = true)
    (.http 403 "You can only review hotels where you have completed a stay")
  return user

def ownReview (s : Store) (token : Bearer) (reviewId : ℤ) : Except Error Review := do
  let user ← getCurrentUser s token
  found (getOwnReview s reviewId user.id) reviewNotFound

def reviewStep (env : Env) (s : Store) : ReviewTask → ReviewTask × Store
  | .submitting token data =>
    match submitChecks s token data with
    | .error _ => (.done, s)
    | .ok user => (.eligible user.id data, s)
  | .eligible userId data =>
    if userHasReviewed s userId data.hotelId then (.done, s) else (.cleared userId data, s)
  | .cleared userId data =>
    (.done, committed s (createReview s env.now userId data.hotelId data.rating data.comment))
  | .editing token reviewId data =>
    match ownReview s token reviewId with
    | .error _ => (.done, s)
    | .ok review => (.edited review data, s)
  | .edited review data =>
    (.done, if ratingRange (data.apply review).rating then
      { s with reviews := s.reviews.update review.id data.apply } else s)
  | .removing token reviewId =>
    match ownReview s token reviewId with
    | .error _ => (.done, s)
    | .ok review => (.removed review, s)
  | .removed review => (.done, { s with reviews := s.reviews.delete review.id })
  | .done => (.done, s)

/-- Undisturbed, the three steps of a submission do what the endpoint does. -/
theorem submitReview_steps (env : Env) (s : Store) (token : Bearer) (data : ReviewCreate) :
    submitReview env s token data = (do
      let user ← submitChecks s token data
      ensure (userHasReviewed s user.id data.hotelId = false)
        (.http 409 "You have already reviewed this hotel")
      createReview s env.now user.id data.hotelId data.rating data.comment) := by
  unfold submitReview submitChecks
  simp only [bind_assoc, pure_bind]

/-- At most one review for each user and hotel. -/
def OneReviewEach (s : Store) : Prop :=
  s.reviews.UniqueBy fun r => some (r.userId, r.hotelId)

/-- When a submission inserts its review, its user still has none of the hotel. -/
def StillUnreviewed (y : Shared Store ReviewTask) (e : Turn Env) : Prop :=
  ∀ userId data r, y.tasks e.task = .cleared userId data →
    createReview y.data e.env.now userId data.hotelId data.rating data.comment = .ok r →
    userHasReviewed y.data userId data.hotelId = false

theorem userHasReviewed_eq_false {s : Store} {userId hotelId : ℤ} :
    userHasReviewed s userId hotelId = false ↔
      ∀ r ∈ s.reviews.rows, (r.userId, r.hotelId) ≠ (userId, hotelId) := by
  unfold userHasReviewed
  rw [Table.any_eq_false]
  refine forall₂_congr fun r _ => ?_
  rw [Bool.and_eq_false_iff, decide_eq_false_iff_not, decide_eq_false_iff_not, ne_eq,
    Prod.mk.injEq, not_and_or]

instance (s : Store) : Decidable (OneReviewEach s) :=
  inferInstanceAs (Decidable (Table.UniqueBy _ s.reviews))

/-- Nothing but the insert of a submission can repeat a pair. -/
theorem oneReviewEach_reviewStep (env : Env) {s : Store} {t : ReviewTask} (h : OneReviewEach s)
    (ht : ∀ userId data, t ≠ .cleared userId data) : OneReviewEach (reviewStep env s t).2 := by
  cases t with
  | cleared userId data => exact absurd rfl (ht userId data)
  | submitting token data =>
    simp only [reviewStep]
    split <;> exact h
  | eligible userId data =>
    simp only [reviewStep]
    split <;> exact h
  | editing token reviewId data =>
    simp only [reviewStep]
    split <;> exact h
  | edited review data =>
    simp only [reviewStep]
    split
    · exact Table.UniqueBy.update h fun r => rfl
    · exact h
  | removing token reviewId =>
    simp only [reviewStep]
    split <;> exact h
  | removed review =>
    exact Table.UniqueBy.subset h fun r hr => ((Table.mem_deleteWhere _).mp hr).1
  | done => exact h

theorem oneReviewEach_created {s : Store} {now userId hotelId rating : ℤ}
    {comment : Option String} {r : Review × Store} (h : OneReviewEach s)
    (hr : createReview s now userId hotelId rating comment = .ok r) :
    OneReviewEach r.2 ↔ userHasReviewed s userId hotelId = false := by
  unfold createReview at hr
  simp only [bind_eq_ok, ensure_eq_ok, pure_eq_ok] at hr
  obtain ⟨_, _, rfl⟩ := hr
  rw [userHasReviewed_eq_false]
  refine (Table.uniqueBy_insert_iff _ h).trans ?_
  constructor
  · intro hfree r' hr' heq
    exact hfree rfl r' hr' (congrArg some heq)
  · intro hfree _ r' hr' heq
    exact hfree r' hr' (Option.some_inj.mp heq)

theorem oneReviewEach_step (y : Shared Store ReviewTask) (e : Turn Env)
    (h : OneReviewEach y.data) :
    OneReviewEach (turnStep reviewStep y e).data ↔ StillUnreviewed y e := by
  by_cases hex : ∃ userId data, y.tasks e.task = .cleared userId data
  · obtain ⟨userId, data, ht⟩ := hex
    have hdata : (turnStep reviewStep y e).data = committed y.data
        (createReview y.data e.env.now userId data.hotelId data.rating data.comment) := by
      rw [turnStep, ht]
      rfl
    rw [hdata]
    cases hr : createReview y.data e.env.now userId data.hotelId data.rating data.comment with
    | error err =>
      refine iff_of_true h fun userId' data' r htask hok => ?_
      rw [ht] at htask
      cases htask
      rw [hr] at hok
      cases hok
    | ok r =>
      refine (oneReviewEach_created h hr).trans ⟨fun hfree userId' data' r' htask _ => ?_, ?_⟩
      · rw [ht] at htask
        cases htask
        exact hfree
      · exact fun hstill => hstill userId data r ht hr
  · have hne : ∀ userId data, y.tasks e.task ≠ .cleared userId data :=
      fun userId data heq => hex ⟨userId, data, heq⟩
    exact iff_of_true (oneReviewEach_reviewStep e.env h hne)
      fun userId data _ htask => absurd htask (hne userId data)

/-- Interleaved submissions, edits and removals never leave two reviews of one
user for one hotel exactly when no submission inserts behind another one. -/
theorem oneReviewEach_iff (y : Shared Store ReviewTask) (es : List (Turn Env))
    (h : OneReviewEach y.data) :
    Always (turnStep reviewStep) (fun y => OneReviewEach y.data) y es ↔
      Along (turnStep reviewStep) StillUnreviewed y es :=
  always_iff_along (J := fun _ => True) (fun _ _ _ => trivial)
    (fun y e _ _ hone => oneReviewEach_step y e hone)
    (along_of_forall fun _ _ _ => trivial) trivial h

/-- The guest's stay is over, and she submits her review from two devices. -/
def twoSubmissions : Shared Store ReviewTask where
  data := setStatus bookedStore 1 .completed
  tasks := fun _ => .submitting (some 1) ⟨1, 5, none⟩

def reviewTurns (turns : List ℕ) : List (Turn Env) := turns.map fun i => ⟨i, sampleEnv "txn_1"⟩

theorem oneReviewEach_iff_in_turn : OneReviewEach twoSubmissions.data ∧
    (Always (turnStep reviewStep) (fun y => OneReviewEach y.data) twoSubmissions
        (reviewTurns [0, 0, 0, 1, 1]) ↔
      Along (turnStep reviewStep) StillUnreviewed twoSubmissions (reviewTurns [0, 0, 0, 1, 1])) :=
  ⟨by decide +kernel, oneReviewEach_iff _ _ (by decide +kernel)⟩

/-- Both have checked before either inserts. -/
theorem reviewed_twice : OneReviewEach twoSubmissions.data ∧
    ¬Always (turnStep reviewStep) (fun y => OneReviewEach y.data) twoSubmissions
      (reviewTurns [0, 0, 1, 1, 0, 1]) := by
  decide +kernel

end HotelMs
