import HotelMs.Recommend
import HotelMs.ReportScope
import HotelMs.Lib.Entrywise
import Mathlib.Tactic.NormNum
import Mathlib.Tactic.Positivity

/-!
# When a recommendation is sound
-/

namespace HotelMs

open Tables Numerals PyJson Entrywise

/-- `z` is `y` rounded to 53 bits; nothing is said of an overflow. -/
def Rounds (z y : ℚ) : Prop := ∀ n < 1024, |y| ≤ 2 ^ n → |z - y| ≤ 2 ^ n / 2 ^ 54

theorem Rounds.refl (z : ℚ) : Rounds z z := by
  intro n _ _
  rw [sub_self, abs_zero]
  positivity

theorem rounds_mul (x y : ℚ) : Rounds (x * y) (x * y) := .refl _

/-- The values are those of the finite numbers, `0` else. -/
structure BinaryFloat extends RecommendFloat where
  value : Carrier → ℚ
  ofInt_rounds : ∀ i x, ofInt i = some x → Rounds (value x) i
  ofRat_rounds : ∀ q, Rounds (value (ofRat q)) q
  mul_rounds : ∀ x y, Rounds (value (mul x y)) (value x * value y)
  toInt_truncates : ∀ x i, toInt x = some i → i = if 0 ≤ value x then ⌊value x⌋ else ⌈value x⌉

/-- Tenths are whole numbers. -/
theorem truncated_le {v : ℚ} {i budgetMax : ℤ} (hi : i = if 0 ≤ v then ⌊v⌋ else ⌈v⌉)
    (hlow : 0 ≤ budgetMax) (hv : v < 13 / 10 * budgetMax + 1 / 10) :
    (i : ℚ) ≤ 13 / 10 * budgetMax := by
  have hb : (0 : ℚ) ≤ budgetMax := Int.cast_nonneg hlow
  by_cases hsign : 0 ≤ v
  · rw [if_pos hsign] at hi
    have hfloor := Int.floor_le v
    rw [← hi] at hfloor
    have htenths : (10 * i : ℚ) < 13 * budgetMax + 1 := by linarith
    have hint : 10 * i < 13 * budgetMax + 1 := by exact_mod_cast htenths
    have hle : (10 * i : ℚ) ≤ 13 * budgetMax := by exact_mod_cast Int.lt_add_one_iff.mp hint
    linarith
  · rw [if_neg hsign] at hi
    have hceil : ⌈v⌉ ≤ 0 := Int.ceil_le.mpr (by rw [Int.cast_zero]; exact (not_le.mp hsign).le)
    rw [← hi] at hceil
    have hnonpos : (i : ℚ) ≤ 0 := by exact_mod_cast hceil
    linarith

theorem relaxedBudget_le (F : BinaryFloat) {budgetMax relaxed : ℤ}
    (h : relaxedBudget F.toRecommendFloat budgetMax = some relaxed)
    (hlow : 0 ≤ budgetMax) (hhigh : budgetMax < 10 ^ 8) : (relaxed : ℚ) ≤ 13 / 10 * budgetMax := by
  unfold relaxedBudget at h
  simp only [Option.bind_eq_bind, Option.bind_eq_some_iff] at h
  obtain ⟨x, hx, htoInt⟩ := h
  have hb : (0 : ℚ) ≤ budgetMax := Int.cast_nonneg hlow
  have hb' : (budgetMax : ℚ) ≤ 10 ^ 8 := by exact_mod_cast hhigh.le
  have hbudget := F.ofInt_rounds budgetMax x hx 27 (by norm_num)
    (by rw [abs_of_nonneg hb]; linarith)
  have hfactor := F.ofRat_rounds (13 / 10) 1 (by norm_num) (by norm_num)
  rw [abs_le] at hbudget hfactor
  generalize hv : F.value x = v at hbudget
  generalize hw : F.value (F.ofRat (13 / 10)) = w at hfactor
  have hproduct : |v * w| ≤ 2 ^ 28 := by
    rw [abs_le]
    constructor
    · nlinarith
    · nlinarith
  have hmul := F.mul_rounds x (F.ofRat (13 / 10)) 28 (by norm_num) (by rw [hv, hw]; exact hproduct)
  rw [hv, hw, abs_le] at hmul
  have hvalue : F.value (F.mul x (F.ofRat (13 / 10))) < 13 / 10 * budgetMax + 1 / 10 := by
    nlinarith
  exact truncated_le (F.toInt_truncates _ _ htoInt) hlow hvalue

/-! ### What is promised, and when -/

section

variable (F : RecommendFloat) (s : Store) (env : RecommendEnv) (body : RecommendRequest)

/-- Numbers and price of a stored room that the guests may be sent to. -/
structure Recommendable (rooms : List Room) (rec : RoomRecommendation F) (room : Room) : Prop where
  candidate : room ∈ rooms
  roomId : rec.roomId = room.id
  isActive : room.isActive = true
  capacity : ∃ c ∈ room.capacity, body.guests ≤ c
  price : ∃ p ∈ room.basePrice, p ≤ 13 / 10 * body.budgetMax ∧ rec.pricePerNight = F.ofRat p

structure RecommendSound (rooms : List Room) (recs : List (RoomRecommendation F)) : Prop where
  atMostFive : recs.length ≤ 5
  distinct : (recs.map RoomRecommendation.roomId).Nodup
  room : ∀ rec ∈ recs, ∃ room, Recommendable F body rooms rec room
  score : ∀ rec ∈ recs, 0 ≤ rec.matchScore ∧ rec.matchScore ≤ 100

def RecommendRobust : Prop :=
  ∃ rooms r, candidateRooms F s env.order env.order' body = .ok rooms ∧
    recommend F s env body = .ok r ∧ RecommendSound F body rooms r.recommendations

/-- A negative budget, relaxed, is above the budget times 1.3. -/
def Affords (room : Room) : Prop :=
  0 ≤ body.budgetMax ∨ ∀ p ∈ room.basePrice, p ≤ 13 / 10 * body.budgetMax

variable {F}

/-- An entry that does not raise. -/
structure EntryReads (rooms : List Room) (e : PyValue F.Carrier) : Prop where
  fields : hasFields e = true
  key : hashable (entryId e) = true
  score : ∀ room, entryRoom rooms e = some room → ∃ score, entryScore e = some score

structure EntryFits (e : PyValue F.Carrier) (room : Room) (score : ℤ) : Prop where
  low : 0 ≤ score
  high : score ≤ 100
  reason : ∃ t, entryReason e = .str t
  tags : ∃ ts : List PyStr, entryTags (roomTypeName s room) e = .list (ts.map .str)
  affords : Affords body room

structure AnswerFits (rooms : List Room) (entries : List (PyValue F.Carrier))
    (summary : PyValue F.Carrier) : Prop where
  distinct : ((entries.filterMap (entryRoom rooms)).map Room.id).Nodup
  entries : ∀ e ∈ entries, ∀ room score,
    entryRoom rooms e = some room → entryScore e = some score → EntryFits s body e room score
  summary : ∃ t, summary = .str t

variable (F)

/-- The text of the model, up to its last entry. -/
def AnswerReads (rooms : List Room) (entries : List (PyValue F.Carrier))
    (summary : PyValue F.Carrier) : Prop :=
  (∃ text, env.reply = some (some text) ∧ parseAnswer F env.levels text = some (entries, summary)) ∧
    ∀ e ∈ entries, EntryReads rooms e

structure RecommendFits (rooms : List Room) : Prop where
  answer : ∀ entries summary, AnswerReads F env rooms entries summary →
    AnswerFits s body rooms entries summary
  fallback : (¬∃ entries summary, AnswerReads F env rooms entries summary) →
    ∃ five, closestRooms F rooms body.budgetMax = some five ∧ ∀ room ∈ five, Affords body room

end

/-! ### Candidates -/

def PricesFit (s : Store) : Prop := ∀ r ∈ s.rooms.rows, ∀ p ∈ r.basePrice, p < 10 ^ 8

structure Candidate (body : RecommendRequest) (r : Room) : Prop where
  isActive : r.isActive = true
  capacity : ∃ c ∈ r.capacity, body.guests ≤ c
  price : ∃ p ∈ r.basePrice, 0 ≤ body.budgetMax → p ≤ 13 / 10 * body.budgetMax

structure Candidates (body : RecommendRequest) (rooms : List Room) : Prop where
  candidate : ∀ r ∈ rooms, Candidate body r
  distinct : (rooms.map Room.id).Nodup

section

variable {s : Store} {order : List Room → List Room} {budgetMax guests : ℤ}

theorem mem_queryRooms (horder : ∀ rooms, (order rooms).Perm rooms) {r : Room}
    (h : r ∈ queryRooms s order budgetMax guests) :
    r ∈ s.rooms.rows ∧ r.isActive = true ∧ (∃ c ∈ r.capacity, guests ≤ c) ∧
      ∃ p ∈ r.basePrice, p ≤ budgetMax := by
  have hmem := (horder _).mem_iff.mp (List.mem_of_mem_take h)
  rw [Table.mem_select] at hmem
  obtain ⟨hstored, hwhere⟩ := hmem
  unfold affordable at hwhere
  simp only [Bool.and_eq_true, Option.any_eq_true, decide_eq_true_eq] at hwhere
  obtain ⟨⟨⟨-, hactive⟩, hprice⟩, hcapacity⟩ := hwhere
  exact ⟨hstored, hactive, hcapacity, hprice⟩

theorem queryRooms_nodup (horder : ∀ rooms, (order rooms).Perm rooms) :
    ((queryRooms s order budgetMax guests).map Room.id).Nodup := by
  have hselect : ((s.rooms.select (affordable s budgetMax guests)).map Room.id).Nodup :=
    s.rooms.distinct.sublist (List.filter_sublist.map _)
  have hordered := ((horder _).map Room.id).nodup_iff.mpr hselect
  exact hordered.sublist ((List.take_sublist _ _).map _)

end

theorem candidateRooms_candidates (F : BinaryFloat) {s : Store} {env : RecommendEnv}
    {body : RecommendRequest} {rooms : List Room} (hprices : PricesFit s)
    (h : candidateRooms F.toRecommendFloat s env.order env.order' body = .ok rooms) :
    Candidates body rooms := by
  unfold candidateRooms at h
  dsimp only at h
  split at h
  · cases hrelaxed : relaxedBudget F.toRecommendFloat body.budgetMax with
    | none =>
      rw [hrelaxed] at h
      cases h
    | some relaxed =>
      rw [hrelaxed] at h
      cases h
      refine ⟨fun r hr => ?_, queryRooms_nodup env.order_perm'⟩
      obtain ⟨hstored, hactive, hcapacity, p, hp, hle⟩ := mem_queryRooms env.order_perm' hr
      refine ⟨hactive, hcapacity, p, hp, fun hlow => ?_⟩
      -- a budget above every price needs no float
      by_cases hhigh : body.budgetMax < 10 ^ 8
      · exact hle.trans (relaxedBudget_le F hrelaxed hlow hhigh)
      · have hfits := hprices r hstored p hp
        have hbudget : (10 ^ 8 : ℚ) ≤ body.budgetMax := by exact_mod_cast not_lt.mp hhigh
        linarith
  · cases h
    refine ⟨fun r hr => ?_, queryRooms_nodup env.order_perm⟩
    obtain ⟨-, hactive, hcapacity, p, hp, hle⟩ := mem_queryRooms env.order_perm hr
    refine ⟨hactive, hcapacity, p, hp, fun hlow => ?_⟩
    have hbudget : (0 : ℚ) ≤ body.budgetMax := Int.cast_nonneg hlow
    linarith

/-! ### Recommendations of chosen rooms -/

section

variable {F : RecommendFloat} {body : RecommendRequest} {rooms chosen : List Room}
  {recs : List (RoomRecommendation F)}

structure Shows (room : Room) (rec : RoomRecommendation F) : Prop where
  roomId : rec.roomId = room.id
  price : rec.pricePerNight = roomPrice F room

theorem shows_ids (h : List.Forall₂ Shows chosen recs) :
    recs.map RoomRecommendation.roomId = chosen.map Room.id := by
  induction h with
  | nil => rfl
  | cons hfirst _ ih => rw [List.map_cons, List.map_cons, hfirst.roomId, ih]

theorem recommendSound_iff (hrooms : Candidates body rooms) (hchosen : chosen ⊆ rooms)
    (hfive : chosen.length ≤ 5) (h : List.Forall₂ Shows chosen recs) :
    RecommendSound F body rooms recs ↔ (chosen.map Room.id).Nodup ∧
      (∀ rec ∈ recs, 0 ≤ rec.matchScore ∧ rec.matchScore ≤ 100) ∧
      ∀ room ∈ chosen, Affords body room := by
  constructor
  · intro hsound
    refine ⟨shows_ids h ▸ hsound.distinct, hsound.score, fun room hroom => ?_⟩
    obtain ⟨rec, hrec, hshows⟩ := exists_right h hroom
    obtain ⟨room', hroom'⟩ := hsound.room rec hrec
    have hsame : room' = room := List.inj_on_of_nodup_map hrooms.distinct hroom'.candidate
      (hchosen hroom) (hroom'.roomId.symm.trans hshows.roomId)
    subst hsame
    obtain ⟨p, hp, hle, -⟩ := hroom'.price
    refine .inr fun q hq => ?_
    rw [Option.mem_unique hq hp]
    exact hle
  · rintro ⟨hdistinct, hscore, haffords⟩
    refine ⟨h.length_eq ▸ hfive, (shows_ids h).symm ▸ hdistinct, fun rec hrec => ?_, hscore⟩
    obtain ⟨room, hroom, hshows⟩ := exists_left h hrec
    have hcandidate := hrooms.candidate room (hchosen hroom)
    obtain ⟨p, hp, hbudget⟩ := hcandidate.price
    have hshown : rec.pricePerNight = F.ofRat p := by
      rw [hshows.price, roomPrice, Option.mem_def.mp hp]
      rfl
    have hle : p ≤ 13 / 10 * body.budgetMax := by
      rcases haffords room hroom with hlow | hprice
      · exact hbudget hlow
      · exact hprice p hp
    exact ⟨room, hchosen hroom, hshows.roomId, hcandidate.isActive, hcandidate.capacity,
      p, hp, hle, hshown⟩

end

/-! ### The fallback -/

section

variable {F : RecommendFloat} {s : Store} {body : RecommendRequest} {rooms five : List Room}
  {lower : String → String}

theorem closestRooms_subset (h : closestRooms F rooms body.budgetMax = some five) :
    five ⊆ rooms ∧ five.length ≤ 5 ∧ ((rooms.map Room.id).Nodup → (five.map Room.id).Nodup) := by
  unfold closestRooms at h
  simp only [Option.bind_eq_bind, Option.bind_eq_some_iff, Option.pure_def,
    Option.some.injEq] at h
  obtain ⟨budget, -, rfl⟩ := h
  have hperm := List.perm_insertionSort (fun r r' => F.lt (F.abs (F.sub (roomPrice F r') budget))
    (F.abs (F.sub (roomPrice F r) budget)) = false) rooms
  refine ⟨fun r hr => hperm.mem_iff.mp (List.mem_of_mem_take hr), List.length_take_le _ _, ?_⟩
  intro hdistinct
  exact ((hperm.map Room.id).nodup_iff.mpr hdistinct).sublist ((List.take_sublist _ _).map _)

variable (F s lower) in
theorem fallback_shows (n : ℕ) (five : List Room) :
    List.Forall₂ Shows five
      (five.mapIdx fun i r => fallbackRecommendation F s lower r (i + n)) := by
  induction five generalizing n with
  | nil => exact .nil
  | cons room rest ih =>
    rw [List.mapIdx_cons]
    refine .cons ⟨rfl, rfl⟩ ?_
    have hrest := ih (n + 1)
    simp only [Nat.add_right_comm _ 1 n, Nat.add_assoc] at hrest ⊢
    exact hrest

theorem fallback_score (r : Room) (i : ℕ) :
    0 ≤ (fallbackRecommendation F s lower r i).matchScore ∧
      (fallbackRecommendation F s lower r i).matchScore ≤ 100 := by
  unfold fallbackRecommendation
  dsimp only
  omega

theorem fallback_sound_iff (hrooms : Candidates body rooms) (summary : String) :
    (∃ r, fallbackRecommendations F s lower rooms body.budgetMax summary = .ok r ∧
      RecommendSound F body rooms r.recommendations) ↔
    ∃ five, closestRooms F rooms body.budgetMax = some five ∧
      ∀ room ∈ five, Affords body room := by
  unfold fallbackRecommendations
  cases hclosest : closestRooms F rooms body.budgetMax with
  | none =>
    constructor
    · rintro ⟨r, hr, -⟩
      cases hr
    · rintro ⟨five, hfive, -⟩
      cases hfive
  | some five =>
    obtain ⟨hsubset, hlength, hdistinct⟩ := closestRooms_subset hclosest
    have hsound := recommendSound_iff hrooms hsubset hlength (fallback_shows F s lower 0 five)
    have hscore : ∀ rec ∈ five.mapIdx fun i r => fallbackRecommendation F s lower r i,
        0 ≤ rec.matchScore ∧ rec.matchScore ≤ 100 := by
      intro rec hrec
      obtain ⟨i, hi, rfl⟩ := List.mem_mapIdx.mp hrec
      exact fallback_score _ i
    constructor
    · rintro ⟨r, hr, hr'⟩
      cases hr
      exact ⟨five, rfl, (hsound.mp hr').2.2⟩
    · rintro ⟨five', hfive', haffords⟩
      cases hfive'
      exact ⟨_, rfl, hsound.mpr ⟨hdistinct hrooms.distinct, hscore, haffords⟩⟩

end

/-! ### The answer -/

section

variable {F : RecommendFloat}

theorem validText_eq_some {v : PyValue F.Carrier} {t : PyStr} :
    validText v = some t ↔ v = .str t := by
  unfold validText
  split
  next s => rw [Option.some.injEq, PyValue.str.injEq]
  next h =>
    constructor
    · intro hnone
      cases hnone
    · intro hv
      exact absurd hv (h t)

theorem validTexts_eq_some {v : PyValue F.Carrier} {ts : List PyStr} :
    validTexts v = some ts ↔ v = .list (ts.map .str) := by
  unfold validTexts
  split
  next vs =>
    rw [mapM_eq_some, PyValue.list.injEq]
    simp only [validText_eq_some]
    rw [← List.forall₂_map_right_iff, List.forall₂_eq_eq_eq]
  next h =>
    constructor
    · intro hnone
      cases hnone
    · intro hv
      exact absurd hv (h _)

theorem validate_eq_some {h : Hydrated F} {rec : RoomRecommendation F} :
    h.validate = some rec ↔ ∃ reason tags, h.matchReason = .str reason ∧
      h.styleTags = .list (tags.map .str) ∧
      rec = ⟨h.room.id, h.hotelName, h.roomName, h.pricePerNight, h.matchScore, reason, tags⟩ := by
  unfold Hydrated.validate
  simp only [Option.bind_eq_bind, Option.bind_eq_some_iff, Option.pure_def, Option.some.injEq,
    validText_eq_some, validTexts_eq_some]
  constructor
  · rintro ⟨reason, hreason, tags, htags, rfl⟩
    exact ⟨reason, tags, hreason, htags, rfl⟩
  · rintro ⟨reason, tags, hreason, htags, rfl⟩
    exact ⟨reason, hreason, tags, htags, rfl⟩

section

variable (s : Store) (rooms : List Room)

def hydratedOf (e : PyValue F.Carrier) : Option (Hydrated F) :=
  (entryRoom rooms e).bind fun room => (entryScore e).map (hydratedEntry s e room)

theorem hydratedOf_eq_some {e : PyValue F.Carrier} {h : Hydrated F} :
    hydratedOf s rooms e = some h ↔ ∃ room score, entryRoom rooms e = some room ∧
      entryScore e = some score ∧ h = hydratedEntry s e room score := by
  unfold hydratedOf
  simp only [Option.bind_eq_some_iff, Option.map_eq_some_iff]
  constructor
  · rintro ⟨room, hroom, score, hscore, rfl⟩
    exact ⟨room, score, hroom, hscore, rfl⟩
  · rintro ⟨room, score, hroom, hscore, rfl⟩
    exact ⟨room, hroom, score, hscore, rfl⟩

theorem mem_hydrated {es : List (PyValue F.Carrier)} {h : Hydrated F} :
    h ∈ es.filterMap (hydratedOf s rooms) ↔ ∃ e ∈ es, ∃ room score,
      entryRoom rooms e = some room ∧ entryScore e = some score ∧
        h = hydratedEntry s e room score := by
  simp only [List.mem_filterMap, hydratedOf_eq_some]

theorem hydrate_eq_some {es : List (PyValue F.Carrier)} {hs : List (Hydrated F)} :
    hydrate s rooms es = some hs ↔
      (∀ e ∈ es, EntryReads rooms e) ∧ hs = es.filterMap (hydratedOf s rooms) := by
  induction es generalizing hs with
  | nil =>
    rw [hydrate, Option.some.injEq, List.filterMap_nil]
    exact ⟨fun h => ⟨fun e he => absurd he List.not_mem_nil, h.symm⟩, fun h => h.2.symm⟩
  | cons e es ih =>
    rw [hydrate, List.forall_mem_cons, List.filterMap_cons]
    by_cases hreads : hasFields e = true ∧ hashable (entryId e) = true
    · rw [if_pos (Bool.and_eq_true_iff.mpr hreads)]
      cases hroom : entryRoom rooms e with
      | none =>
        have hread : EntryReads rooms e :=
          ⟨hreads.1, hreads.2, fun room hsome => by rw [hroom] at hsome; cases hsome⟩
        have hnone : hydratedOf s rooms e = none := by
          rw [hydratedOf, hroom]
          rfl
        rw [hnone]
        exact ih.trans ⟨fun h => ⟨⟨hread, h.1⟩, h.2⟩, fun h => ⟨h.1.2, h.2⟩⟩
      | some room =>
        simp only [Option.bind_eq_bind, Option.bind_eq_some_iff, Option.pure_def,
          Option.some.injEq]
        constructor
        · rintro ⟨score, hscore, rest, hrest, rfl⟩
          obtain ⟨hall, rfl⟩ := ih.mp hrest
          have hsome := (hydratedOf_eq_some s rooms).mpr ⟨room, score, hroom, hscore, rfl⟩
          rw [hsome]
          exact ⟨⟨⟨hreads.1, hreads.2, fun _ _ => ⟨score, hscore⟩⟩, hall⟩, rfl⟩
        · rintro ⟨⟨hread, hall⟩, rfl⟩
          obtain ⟨score, hscore⟩ := hread.score room hroom
          have hsome := (hydratedOf_eq_some s rooms).mpr ⟨room, score, hroom, hscore, rfl⟩
          rw [hsome]
          exact ⟨score, hscore, _, ih.mpr ⟨hall, rfl⟩, rfl⟩
    · rw [if_neg fun h => hreads (Bool.and_eq_true_iff.mp h)]
      constructor
      · intro hnone
        cases hnone
      · rintro ⟨⟨hread, -⟩, -⟩
        exact absurd ⟨hread.fields, hread.key⟩ hreads

theorem hydrated_rooms {es : List (PyValue F.Carrier)} (hreads : ∀ e ∈ es, EntryReads rooms e) :
    (es.filterMap (hydratedOf s rooms)).map Hydrated.room = es.filterMap (entryRoom rooms) := by
  rw [List.map_filterMap]
  refine List.filterMap_congr fun e he => ?_
  unfold hydratedOf
  cases hroom : entryRoom rooms e with
  | none => rfl
  | some room =>
    obtain ⟨score, hscore⟩ := (hreads e he).score room hroom
    rw [hscore]
    rfl

theorem entryRoom_mem {e : PyValue F.Carrier} {room : Room} (h : entryRoom rooms e = some room) :
    room ∈ rooms := by
  unfold entryRoom at h
  obtain ⟨i, -, hfind⟩ := Option.bind_eq_some_iff.mp h
  exact List.mem_of_find?_eq_some hfind

end

theorem validateResponse_eq_ok {hs : List (Hydrated F)} {summary : PyValue F.Carrier}
    {r : RecommendResponse F} : validateResponse hs summary = .ok r ↔
      hs.mapM Hydrated.validate = some r.recommendations ∧ summary = .str r.summary := by
  unfold validateResponse
  rw [← validText_eq_some]
  cases hs.mapM Hydrated.validate with
  | none =>
    constructor
    · intro h
      cases h
    · rintro ⟨h, -⟩
      cases h
  | some recs =>
    cases validText summary with
    | none =>
      constructor
      · intro h
        cases h
      · rintro ⟨-, h⟩
        cases h
    | some t =>
      constructor
      · intro h
        cases h
        exact ⟨rfl, rfl⟩
      · rintro ⟨h, h'⟩
        cases h
        cases h'
        rfl

variable {s : Store} {body : RecommendRequest} {rooms : List Room}
  {entries : List (PyValue F.Carrier)} {summary : PyValue F.Carrier}

theorem answer_shows (hreads : ∀ e ∈ entries, EntryReads rooms e)
    {recs : List (RoomRecommendation F)}
    (h : (entries.filterMap (hydratedOf s rooms)).mapM Hydrated.validate = some recs) :
    List.Forall₂ Shows (entries.filterMap (entryRoom rooms)) recs := by
  have hprice : ∀ h ∈ entries.filterMap (hydratedOf s rooms),
      h.pricePerNight = roomPrice F h.room := by
    intro h hh
    obtain ⟨e, -, room, score, -, -, rfl⟩ := (mem_hydrated s rooms).mp hh
    rfl
  rw [← hydrated_rooms s rooms hreads, List.forall₂_map_left_iff]
  refine (List.forall₂_and_left _ _ |>.mpr ⟨hprice, mapM_eq_some.mp h⟩).imp ?_
  rintro x rec ⟨hx, hvalid⟩
  obtain ⟨reason, tags, -, -, rfl⟩ := validate_eq_some.mp hvalid
  exact ⟨rfl, hx⟩

/-- The response model takes what fits. -/
theorem exists_validated (hfits : AnswerFits s body rooms entries summary) :
    ∃ recs, (entries.filterMap (hydratedOf s rooms)).mapM Hydrated.validate = some recs := by
  refine exists_mapM fun h hh => ?_
  obtain ⟨e, he, room, score, hroom, hscore, rfl⟩ := (mem_hydrated s rooms).mp hh
  have hentry := hfits.entries e he room score hroom hscore
  obtain ⟨reason, hreason⟩ := hentry.reason
  obtain ⟨tags, htags⟩ := hentry.tags
  exact ⟨_, validate_eq_some.mpr ⟨reason, tags, hreason, htags, rfl⟩⟩

theorem validated_score (hfits : AnswerFits s body rooms entries summary)
    {recs : List (RoomRecommendation F)}
    (h : (entries.filterMap (hydratedOf s rooms)).mapM Hydrated.validate = some recs) :
    ∀ rec ∈ recs, 0 ≤ rec.matchScore ∧ rec.matchScore ≤ 100 := by
  intro rec hrec
  obtain ⟨x, hx, hvalid⟩ := exists_left (mapM_eq_some.mp h) hrec
  obtain ⟨e, he, room, score, hroom, hscore, rfl⟩ := (mem_hydrated s rooms).mp hx
  have hentry := hfits.entries e he room score hroom hscore
  obtain ⟨reason, tags, -, -, rfl⟩ := validate_eq_some.mp hvalid
  exact ⟨hentry.low, hentry.high⟩

/-- An answer that reads is refused by the response model or becomes the response. -/
theorem answer_sound_iff (hrooms : Candidates body rooms) (hfive : entries.length ≤ 5)
    (hreads : ∀ e ∈ entries, EntryReads rooms e) :
    (∃ r, validateResponse (entries.filterMap (hydratedOf s rooms)) summary = .ok r ∧
      RecommendSound F body rooms r.recommendations) ↔ AnswerFits s body rooms entries summary := by
  have hsubset : entries.filterMap (entryRoom rooms) ⊆ rooms := by
    intro room hroom
    obtain ⟨e, -, he⟩ := List.mem_filterMap.mp hroom
    exact entryRoom_mem rooms he
  have hlength : (entries.filterMap (entryRoom rooms)).length ≤ 5 :=
    (List.length_filterMap_le _ _).trans hfive
  constructor
  · rintro ⟨r, hr, hsound⟩
    obtain ⟨hvalid, hsummary⟩ := validateResponse_eq_ok.mp hr
    obtain ⟨hdistinct, hscore, haffords⟩ :=
      (recommendSound_iff hrooms hsubset hlength (answer_shows hreads hvalid)).mp hsound
    refine ⟨hdistinct, fun e he room score hroom hentry => ?_, r.summary, hsummary⟩
    have hhydrated := (mem_hydrated s rooms).mpr ⟨e, he, room, score, hroom, hentry, rfl⟩
    obtain ⟨rec, hrec, hrec'⟩ := exists_right (mapM_eq_some.mp hvalid) hhydrated
    obtain ⟨reason, tags, hreason, htags, rfl⟩ := validate_eq_some.mp hrec'
    obtain ⟨hlow, hhigh⟩ := hscore _ hrec
    exact ⟨hlow, hhigh, ⟨reason, hreason⟩, ⟨tags, htags⟩,
      haffords room (List.mem_filterMap.mpr ⟨e, he, hroom⟩)⟩
  · intro hfits
    obtain ⟨recs, hvalid⟩ := exists_validated hfits
    obtain ⟨text, hsummary⟩ := hfits.summary
    have haffords : ∀ room ∈ entries.filterMap (entryRoom rooms), Affords body room := by
      intro room hroom
      obtain ⟨e, he, he'⟩ := List.mem_filterMap.mp hroom
      obtain ⟨score, hentry⟩ := (hreads e he).score room he'
      exact (hfits.entries e he room score he' hentry).affords
    exact ⟨⟨recs, text⟩, validateResponse_eq_ok.mpr ⟨hvalid, hsummary⟩,
      (recommendSound_iff hrooms hsubset hlength (answer_shows hreads hvalid)).mpr
        ⟨hfits.distinct, validated_score hfits hvalid, haffords⟩⟩

end

/-! ### The endpoint -/

section

variable {F : RecommendFloat}

theorem firstFive_length {v : PyValue F.Carrier} {entries : List (PyValue F.Carrier)}
    (h : firstFive v = some entries) : entries.length ≤ 5 := by
  unfold firstFive at h
  split at h
  next vs =>
    cases h
    exact List.length_take_le 5 vs
  next t =>
    cases h
    rw [List.length_map]
    exact List.length_take_le 5 t
  next => cases h

theorem parseAnswer_length {levels : ℕ} {text : List Char} {entries : List (PyValue F.Carrier)}
    {summary : PyValue F.Carrier} (h : parseAnswer F levels text = some (entries, summary)) :
    entries.length ≤ 5 := by
  unfold parseAnswer at h
  split at h
  next fields _ =>
    obtain ⟨entries', hfive, heq⟩ := Option.map_eq_some_iff.mp h
    cases heq
    exact firstFive_length hfive
  next => cases h

variable {s : Store} {env : RecommendEnv} {body : RecommendRequest} {rooms : List Room}

theorem recommend_of_fallback
    (hcandidates : candidateRooms F s env.order env.order' body = .ok rooms) (hne : rooms ≠ [])
    (h : ¬∃ entries summary, AnswerReads F env rooms entries summary) :
    ∃ summary, recommend F s env body =
      fallbackRecommendations F s env.lower rooms body.budgetMax summary := by
  unfold recommend
  rw [hcandidates]
  dsimp only
  rw [if_neg hne]
  cases hreply : env.reply with
  | none => exact ⟨_, rfl⟩
  | some reply =>
    dsimp only
    split
    next recommendations summary hhydrated =>
      simp only [Option.bind_eq_bind, Option.bind_eq_some_iff, Option.pure_def, Option.some.injEq,
        Prod.mk.injEq, Prod.exists] at hhydrated
      obtain ⟨text, rfl, entries, summary', hparse, hs, hhydrate, rfl, rfl⟩ := hhydrated
      exact absurd ⟨entries, summary', ⟨text, hreply, hparse⟩,
        ((hydrate_eq_some s rooms).mp hhydrate).1⟩ h
    next => exact ⟨_, rfl⟩

theorem recommend_of_reads
    (hcandidates : candidateRooms F s env.order env.order' body = .ok rooms) (hne : rooms ≠ [])
    {entries : List (PyValue F.Carrier)} {summary : PyValue F.Carrier}
    (h : AnswerReads F env rooms entries summary) : recommend F s env body =
      validateResponse (entries.filterMap (hydratedOf s rooms)) summary := by
  obtain ⟨⟨text, hreply, hparse⟩, hreads⟩ := h
  have hhydrate := (hydrate_eq_some s rooms).mpr ⟨hreads, rfl⟩
  unfold recommend
  rw [hcandidates, hreply]
  dsimp only
  rw [if_neg hne]
  simp only [Option.bind_eq_bind, Option.bind_some, hparse, hhydrate, Option.pure_def]

theorem answerReads_unique {entries entries' : List (PyValue F.Carrier)}
    {summary summary' : PyValue F.Carrier} (h : AnswerReads F env rooms entries summary)
    (h' : AnswerReads F env rooms entries' summary') : entries' = entries ∧ summary' = summary := by
  obtain ⟨⟨text, hreply, hparse⟩, -⟩ := h
  obtain ⟨⟨text', hreply', hparse'⟩, -⟩ := h'
  rw [hreply] at hreply'
  cases hreply'
  rw [hparse] at hparse'
  cases hparse'
  exact ⟨rfl, rfl⟩

theorem recommend_sound_iff (hrooms : Candidates body rooms)
    (hcandidates : candidateRooms F s env.order env.order' body = .ok rooms) (hne : rooms ≠ []) :
    (∃ r, recommend F s env body = .ok r ∧ RecommendSound F body rooms r.recommendations) ↔
      RecommendFits F s env body rooms := by
  by_cases hreads : ∃ entries summary, AnswerReads F env rooms entries summary
  · obtain ⟨entries, summary, h⟩ := hreads
    obtain ⟨⟨text, -, hparse⟩, hentries⟩ := id h
    rw [recommend_of_reads hcandidates hne h,
      answer_sound_iff hrooms (parseAnswer_length hparse) hentries]
    constructor
    · intro hfits
      refine ⟨fun entries' summary' h' => ?_, fun hnone => absurd ⟨entries, summary, h⟩ hnone⟩
      obtain ⟨rfl, rfl⟩ := answerReads_unique h h'
      exact hfits
    · intro hfits
      exact hfits.answer entries summary h
  · obtain ⟨summary, hrecommend⟩ := recommend_of_fallback hcandidates hne hreads
    rw [hrecommend, fallback_sound_iff hrooms summary]
    constructor
    · intro hfits
      exact ⟨fun entries' summary' h' => absurd ⟨entries', summary', h'⟩ hreads, fun _ => hfits⟩
    · intro hfits
      exact hfits.fallback hreads

end

theorem recommend_robust_iff (F : BinaryFloat) (s : Store) (env : RecommendEnv)
    (body : RecommendRequest) (hprices : PricesFit s) :
    RecommendRobust F.toRecommendFloat s env body ↔
      ∃ rooms, candidateRooms F.toRecommendFloat s env.order env.order' body = .ok rooms ∧
        (rooms = [] ∨ RecommendFits F.toRecommendFloat s env body rooms) := by
  unfold RecommendRobust
  refine exists_congr fun rooms => ?_
  rw [exists_and_left, and_congr_right_iff]
  intro hcandidates
  have hrooms := candidateRooms_candidates F hprices hcandidates
  by_cases hne : rooms = []
  · have hempty : ∃ r, recommend F.toRecommendFloat s env body = .ok r ∧
        RecommendSound F.toRecommendFloat body rooms r.recommendations := by
      unfold recommend
      rw [hcandidates]
      dsimp only
      rw [if_pos hne]
      exact ⟨_, rfl, Nat.zero_le 5, List.nodup_nil, fun _ h => absurd h List.not_mem_nil,
        fun _ h => absurd h List.not_mem_nil⟩
    exact iff_of_true hempty (.inl hne)
  · rw [recommend_sound_iff hrooms hcandidates hne]
    exact ⟨.inr, fun h => h.resolve_left hne⟩

/-! ### An answer, and one without a summary -/

/-- Exact arithmetic. -/
def rationalFloat : BinaryFloat where
  toPyFloat := sampleFloat
  ofInt := fun i => some (i : ℚ)
  toInt := fun (x : ℚ) => some (if 0 ≤ x then ⌊x⌋ else ⌈x⌉)
  abs := (fun x => |x| : ℚ → ℚ)
  whole := fun (x : ℚ) => if x.den = 1 then some x.num else none
  repr := fun (x : ℚ) => String.ofList (intText x.num) ++ ".0"
  parse := fun text => (number (digits text).1 : ℚ)
  value := fun (x : ℚ) => x
  ofInt_rounds := by
    rintro i x ⟨⟩
    exact .refl _
  ofRat_rounds := fun q => .refl q
  mul_rounds := rounds_mul
  toInt_truncates := by
    rintro x i ⟨⟩
    rfl

def doubleRoom : Room := ⟨1, 1, 1, none, some 2, some 100, none, true⟩

def doubleStore : Store := { sampleStore with rooms := Table.empty.insert doubleRoom }

def weekend : RecommendRequest := ⟨"anniversary", 120, 2⟩

/-- The model answers `reply`. -/
def replies (reply : Option (Option (List Char))) : RecommendEnv where
  order := id
  order' := id
  order_perm := fun _ => .rfl
  order_perm' := fun _ => .rfl
  lower := fun text => text
  levels := 100
  reply := reply

theorem doubleRoom_candidate (reply : Option (Option (List Char))) :
    candidateRooms rationalFloat.toRecommendFloat doubleStore (replies reply).order
      (replies reply).order' weekend = .ok [doubleRoom] := by
  rfl

theorem doubleStore_pricesFit : PricesFit doubleStore := by
  intro r hr p hp
  have hroom : r = doubleRoom := List.mem_singleton.mp hr
  subst hroom
  cases hp
  norm_num

/-- The model names the room. -/
def oneRoom : List Char :=
  "\x7b\"recommendations\": [\x7b\"room_id\": 1\x7d], \"summary\": \"Quiet\"\x7d".toList

def oneRoomEntry : PyValue ℚ := .dict [(ofText "room_id".toList, .int 1)]

def isOneRoom : Option (List (PyValue ℚ) × PyValue ℚ) → Bool
  | some ([.dict [(key, .int 1)]], .str _) => key = ofText "room_id".toList
  | _ => false

theorem eq_of_isOneRoom (answer : Option (List (PyValue ℚ) × PyValue ℚ)) :
    isOneRoom answer = true → ∃ summary, answer = some ([oneRoomEntry], .str summary) := by
  unfold isOneRoom
  split
  next key summary =>
    intro h
    rw [of_decide_eq_true h]
    exact ⟨summary, rfl⟩
  next => exact fun h => nomatch h

theorem oneRoomEntry_reads :
    EntryReads (F := rationalFloat.toRecommendFloat) [doubleRoom] oneRoomEntry where
  fields := rfl
  key := rfl
  score := fun _ _ => ⟨70, rfl⟩

theorem oneRoomEntry_fits {summary : PyStr} :
    AnswerFits (F := rationalFloat.toRecommendFloat) doubleStore weekend [doubleRoom]
      [oneRoomEntry] (.str summary) where
  distinct := List.nodup_singleton 1
  entries := by
    intro e he room score hroom hscore
    rw [List.mem_singleton.mp he] at hroom hscore ⊢
    cases hroom
    cases hscore
    exact {
      low := by decide
      high := by decide
      reason := ⟨_, rfl⟩
      tags := ⟨[_], rfl⟩
      affords := .inl (by decide) }
  summary := ⟨summary, rfl⟩

theorem recommend_robust_one_room :
    RecommendRobust rationalFloat.toRecommendFloat doubleStore (replies (some (some oneRoom)))
      weekend := by
  obtain ⟨summary, hparse⟩ := eq_of_isOneRoom
    (parseAnswer rationalFloat.toRecommendFloat 100 oneRoom) (by decide +kernel)
  have hanswer : AnswerReads rationalFloat.toRecommendFloat (replies (some (some oneRoom)))
      [doubleRoom] [oneRoomEntry] (.str summary) := by
    refine ⟨⟨oneRoom, rfl, hparse⟩, fun e he => ?_⟩
    rw [List.mem_singleton.mp he]
    exact oneRoomEntry_reads
  refine (recommend_robust_iff rationalFloat doubleStore (replies (some (some oneRoom))) weekend
    doubleStore_pricesFit).mpr ⟨[doubleRoom], doubleRoom_candidate _, .inr ⟨?_, ?_⟩⟩
  · intro entries summary' h
    obtain ⟨rfl, rfl⟩ := answerReads_unique hanswer h
    exact oneRoomEntry_fits
  · exact fun hnone => absurd ⟨_, _, hanswer⟩ hnone

def withoutSummary : List Char := "\x7b\"recommendations\": [], \"summary\": null\x7d".toList

theorem null_summary_is_refused : ¬RecommendRobust rationalFloat.toRecommendFloat doubleStore
    (replies (some (some withoutSummary))) weekend := by
  rintro ⟨rooms, r, -, hr, -⟩
  have hrefused : (recommend rationalFloat.toRecommendFloat doubleStore
      (replies (some (some withoutSummary))) weekend).isOk = false := by
    decide +kernel
  rw [hr] at hrefused
  cases hrefused

end HotelMs
