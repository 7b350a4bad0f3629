import HotelMs.CacheCoherence

/-!
# Refills racing with a booking

Any number of searches and warm-ups of one window and one booking request, a
step at a time. A search looks the window up, on a miss reads the availability,
then sets the entry; its session can be a replica and return any state committed
so far. A warm-up reads the primary and sets the entry. The booking commits,
then deletes keys.
-/

namespace HotelMs

open Tables ReadThrough Runs

/-- `holds`: the list is read from `seen` and not yet set. -/
inductive Filler
  | search
  | warmup
  | missed
  | holds (seen : Store)
  | finished

def Filler.done : Filler → Bool
  | .finished => true
  | _ => false

inductive Booker
  | ready
  | committed (b : Booking)
  | booked (b : Booking)
  | refused
  deriving DecidableEq

/-- `past` has the earlier committed states, newest first. -/
structure Race where
  now : Store
  past : List Store
  cache : AvailCache
  fillers : ℕ → Filler
  booker : Booker

inductive RaceStep
  | lookup (i : ℕ)
  | read (i lag : ℕ)
  | fill (i : ℕ)
  | commit
  | invalidate

def Race.setFiller (y : Race) (i : ℕ) (f : Filler) : Race :=
  { y with fillers := Function.update y.fillers i f }

section

variable (env : Env) (token : Bearer) (data : BookingCreate) (k : AvailKey)

def Race.step (y : Race) : RaceStep → Race
  | .lookup i =>
    match y.fillers i with
    | .search => y.setFiller i (if y.cache k = none then .missed else .finished)
    | _ => y
  | .read i lag =>
    match y.fillers i, (y.now :: y.past)[lag]? with
    | .missed, some seen => y.setFiller i (.holds seen)
    | .warmup, _ => y.setFiller i (.holds y.now)
    | _, _ => y
  | .fill i =>
    match y.fillers i with
    | .holds seen => { y.setFiller i .finished with cache := put y.cache k (availableIds seen k) }
    | _ => y
  | .commit =>
    match y.booker with
    | .ready =>
      match createBookingEndpoint env y.now token data with
      | .error _ => { y with booker := .refused }
      | .ok (b, s) => { y with now := s, past := y.now :: y.past, booker := .committed b }
    | _ => y
  | .invalidate =>
    match y.booker with
    | .committed b =>
      { y with
        cache := invalidateAvailability y.cache b.hotelId b.checkIn b.checkOut
        booker := .booked b }
    | _ => y

end

/-- The step writes or deletes the entry. On the first of all dates the deletion
fails before it comes to the window's own key. -/
def WritesEntry (k : AvailKey) (y : Race) : RaceStep → Prop
  | .fill i => ∃ seen, y.fillers i = .holds seen
  | .invalidate => (∃ b, y.booker = .committed b) ∧ dateMin < k.checkIn
  | _ => False

/-! ### One step -/

theorem createBookingEndpoint_window {env : Env} {s : Store} {token : Bearer}
    {data : BookingCreate} {r : Booking × Store}
    (h : createBookingEndpoint env s token data = .ok r) :
    ∃ room, s.rooms.get data.roomId = some room ∧ r.1.hotelId = room.hotelId ∧
      r.1.checkIn = data.checkIn ∧ r.1.checkOut = data.checkOut := by
  obtain ⟨user, room, price, d, _, hroom, _, rfl, _, _, rfl⟩ := createBookingEndpoint_eq_ok.mp h
  exact ⟨room, hroom, rfl, rfl, rfl⟩

theorem booked_room_taken {env : Env} {s : Store} {token : Bearer} {data : BookingCreate}
    {r : Booking × Store} (h : createBookingEndpoint env s token data = .ok r) {room : Room}
    (hroom : s.rooms.get data.roomId = some room) :
    data.roomId ∉ availableIds r.2 ⟨room.hotelId, data.checkIn, data.checkOut⟩ := by
  obtain ⟨user, room', price, d, _, hroom', _, rfl, _, _, rfl⟩ := createBookingEndpoint_eq_ok.mp h
  obtain rfl := Option.some.inj (hroom.symm.trans hroom')
  intro hid
  obtain ⟨_, _, _, _, _, hvacant⟩ := mem_availableIds.mp hid
  refine ((vacant_insertBooking rfl).mp hvacant).2 ⟨BookingData.row_live _ _ _ _, ?_⟩
  exact ⟨rfl, rfl, data.validate_date_range, data.validate_date_range⟩

/-- The booking of the race is one of the window. -/
structure Race.About (s : Store) (k : AvailKey) (y : Race) : Prop where
  still : y.booker = .ready → y.now = s
  window : ∀ b, y.booker = .committed b →
    b.hotelId = k.hotelId ∧ b.checkIn = k.checkIn ∧ b.checkOut = k.checkOut

theorem Race.About.of_over {s : Store} {k : AvailKey} {y : Race} (hr : y.booker ≠ .ready)
    (hc : ∀ b, y.booker ≠ .committed b) : y.About s k :=
  ⟨fun h => absurd h hr, fun b h => absurd h (hc b)⟩

section

variable {env : Env} {token : Bearer} {data : BookingCreate} {k : AvailKey} {s : Store}
  {room : Room}

/-- What a step can do, with what it has checked. -/
inductive RaceMove (env : Env) (token : Bearer) (data : BookingCreate) (k : AvailKey) (y : Race) :
    RaceStep → Race → Prop
  | stay (e : RaceStep) : RaceMove env token data k y e y
  | filler (e : RaceStep) (i : ℕ) (f : Filler)
      (hf : ∀ seen, f = .holds seen → seen ∈ y.now :: y.past) :
      RaceMove env token data k y e (y.setFiller i f)
  | fill (i : ℕ) (seen : Store) (hi : y.fillers i = .holds seen) :
      RaceMove env token data k y (.fill i)
        { y.setFiller i .finished with cache := put y.cache k (availableIds seen k) }
  | refused : RaceMove env token data k y .commit { y with booker := .refused }
  | commit (b : Booking) (s : Store) (hready : y.booker = .ready)
      (hok : createBookingEndpoint env y.now token data = .ok (b, s)) :
      RaceMove env token data k y .commit
        { y with now := s, past := y.now :: y.past, booker := .committed b }
  | invalidate (b : Booking) (hb : y.booker = .committed b) :
      RaceMove env token data k y .invalidate
        { y with
          cache := invalidateAvailability y.cache b.hotelId b.checkIn b.checkOut
          booker := .booked b }

variable (env token data k) in
theorem Race.step_move (y : Race) (e : RaceStep) :
    RaceMove env token data k y e (y.step env token data k e) := by
  cases e with
  | lookup i =>
    simp only [Race.step]
    split
    · refine .filler _ i _ fun seen hf => ?_
      split at hf <;> cases hf
    · exact .stay _
  | read i lag =>
    simp only [Race.step]
    split
    next seen _ hseen =>
      refine .filler _ i _ fun seen' hf => ?_
      cases hf
      exact List.mem_of_getElem? hseen
    · refine .filler _ i _ fun seen hf => ?_
      cases hf
      exact List.mem_cons_self ..
    · exact .stay _
  | fill i =>
    simp only [Race.step]
    split
    next seen hi => exact .fill i seen hi
    · exact .stay _
  | commit =>
    simp only [Race.step]
    split
    next hready =>
      split
      · exact .refused
      next b s hok => exact .commit b s hready hok
    · exact .stay _
  | invalidate =>
    simp only [Race.step]
    split
    next b hb => exact .invalidate b hb
    · exact .stay _

theorem Race.About.step (hroom : s.rooms.get data.roomId = some room)
    (hk : k = ⟨room.hotelId, data.checkIn, data.checkOut⟩) (y : Race) (e : RaceStep)
    (h : y.About s k) : (y.step env token data k e).About s k := by
  have hmove := Race.step_move env token data k y e
  generalize y.step env token data k e = y' at hmove ⊢
  cases hmove with
  | stay => exact h
  | filler _ i f hf => exact ⟨h.still, h.window⟩
  | fill i seen hi => exact ⟨h.still, h.window⟩
  | refused => exact .of_over Booker.noConfusion fun b => Booker.noConfusion
  | commit b s' hready hok =>
    rw [h.still hready] at hok
    obtain ⟨room', hroom', hhotel, hin, hout⟩ := createBookingEndpoint_window hok
    obtain rfl := Option.some.inj (hroom.symm.trans hroom')
    refine ⟨Booker.noConfusion, ?_⟩
    intro b' hb'
    cases hb'
    rw [hk]
    exact ⟨hhotel, hin, hout⟩
  | invalidate b hb => exact .of_over Booker.noConfusion fun b => Booker.noConfusion

/-- Where the room is on offer, the state is one from before the booking. -/
def OldOffer (old : List Store) (k : AvailKey) (roomId : ℤ) (seen : Store) : Prop :=
  roomId ∈ availableIds seen k → seen ∈ old

structure Race.Reads (old : List Store) (k : AvailKey) (roomId : ℤ) (y : Race) : Prop where
  now : OldOffer old k roomId y.now
  past : ∀ t ∈ y.past, OldOffer old k roomId t
  held : ∀ i seen, y.fillers i = .holds seen → OldOffer old k roomId seen

theorem Race.Reads.setFiller {old : List Store} {roomId : ℤ} {y : Race}
    (h : y.Reads old k roomId) {i : ℕ} {f : Filler}
    (hf : ∀ seen, f = .holds seen → OldOffer old k roomId seen) :
    (y.setFiller i f).Reads old k roomId := by
  refine ⟨h.now, h.past, fun j seen hj => ?_⟩
  simp only [Race.setFiller, Function.update_apply] at hj
  split at hj
  · exact hf seen hj
  · exact h.held j seen hj

theorem Race.Reads.step {old : List Store} (hroom : s.rooms.get data.roomId = some room)
    (hk : k = ⟨room.hotelId, data.checkIn, data.checkOut⟩) (y : Race) (e : RaceStep)
    (h : y.About s k) (hr : y.Reads old k data.roomId) :
    (y.step env token data k e).Reads old k data.roomId := by
  have hmove := Race.step_move env token data k y e
  generalize y.step env token data k e = y' at hmove ⊢
  cases hmove with
  | stay => exact hr
  | filler _ i f hf =>
    refine hr.setFiller fun seen hholds => ?_
    rcases List.mem_cons.mp (hf seen hholds) with rfl | hpast
    · exact hr.now
    · exact hr.past seen hpast
  | fill i seen hi =>
    have hset := hr.setFiller (i := i) (f := .finished) fun seen hf => by cases hf
    exact ⟨hset.now, hset.past, hset.held⟩
  | refused => exact ⟨hr.now, hr.past, hr.held⟩
  | commit b s' hready hok =>
    rw [h.still hready] at hok
    have htaken := booked_room_taken hok hroom
    rw [← hk] at htaken
    refine ⟨fun hoffer => absurd hoffer htaken, ?_, hr.held⟩
    intro t ht
    rcases List.mem_cons.mp ht with rfl | ht
    · exact hr.now
    · exact hr.past t ht
  | invalidate b hb => exact ⟨hr.now, hr.past, hr.held⟩

theorem step_keeps_entry (y : Race) (e : RaceStep) (h : y.About s k) (he : ¬WritesEntry k y e) :
    (y.step env token data k e).cache k = y.cache k := by
  have hmove := Race.step_move env token data k y e
  generalize y.step env token data k e = y' at hmove ⊢
  cases hmove with
  | stay => rfl
  | filler _ i f hf => rfl
  | fill i seen hi => exact absurd ⟨seen, hi⟩ he
  | refused => rfl
  | commit b s' hready hok => rfl
  | invalidate b hb =>
    have hfirst : ¬dateMin < b.checkIn := by
      rw [(h.window b hb).2.1]
      exact fun hlt => he ⟨⟨b, hb⟩, hlt⟩
    simp only [invalidateAvailability_of_first hfirst]

theorem fill_entry {y : Race} {i : ℕ} {seen : Store} (hi : y.fillers i = .holds seen) :
    (y.step env token data k (.fill i)).cache k = some (availableIds seen k) := by
  simp only [Race.step, hi, put_apply, if_true]

theorem invalidate_entry (hw : k.IsWindow) (hlt : k.checkIn < k.checkOut) {y : Race}
    (h : y.About s k) (he : WritesEntry k y .invalidate) :
    (y.step env token data k .invalidate).cache k = none := by
  obtain ⟨⟨b, hb⟩, hfirst⟩ := he
  obtain ⟨hhotel, hin, hout⟩ := h.window b hb
  simp only [Race.step, hb]
  rw [hhotel, hin, hout, invalidateAvailability_eq_none hw.1 hw.2 hlt hw]
  refine Or.inl ⟨hfirst, rfl, Or.inl ⟨rfl, ?_⟩⟩
  simp

/-! ### Whole races -/

/-- Nobody has begun, and the request is for a room of the hotel and the window. -/
structure Race.Opening (data : BookingCreate) (k : AvailKey) (y : Race) : Prop where
  ready : y.booker = .ready
  fresh : ∀ i seen, y.fillers i ≠ .holds seen
  window : ∃ room, y.now.rooms.get data.roomId = some room ∧
    k = ⟨room.hotelId, data.checkIn, data.checkOut⟩

variable {y : Race}

theorem race_known (env : Env) (token : Bearer) (h : y.Opening data k) (es : List RaceStep) :
    (run (Race.step env token data k) y es).About y.now k ∧
      (run (Race.step env token data k) y es).Reads (y.now :: y.past) k data.roomId := by
  obtain ⟨room, hroom, hk⟩ := h.window
  refine run_invariant (P := fun _ _ => True)
    (I := fun x : Race => x.About y.now k ∧ x.Reads (y.now :: y.past) k data.roomId)
    (fun x e hx _ => ⟨Race.About.step hroom hk x e hx.1, Race.Reads.step hroom hk x e hx.1 hx.2⟩)
    ⟨⟨fun _ => rfl, ?_⟩, ⟨?_, ?_, ?_⟩⟩ (along_of_forall fun _ _ _ => trivial)
  · intro b hb
    rw [h.ready] at hb
    cases hb
  · exact fun _ => List.mem_cons_self ..
  · exact fun t ht _ => List.mem_cons_of_mem _ ht
  · exact fun i seen hi => absurd hi (h.fresh i seen)

theorem unwritten_entry (h : y.Opening data k) (pre suf : List RaceStep)
    (hquiet : Along (Race.step env token data k) (fun x e => ¬WritesEntry k x e)
      (run (Race.step env token data k) y pre) suf) :
    (run (Race.step env token data k) y (pre ++ suf)).cache k =
      (run (Race.step env token data k) y pre).cache k := by
  obtain ⟨room, hroom, hk⟩ := h.window
  rw [run_append]
  exact run_eq_of_along (f := fun x : Race => x.cache k)
    (fun x e hx => Race.About.step hroom hk x e hx) (fun x e hx => step_keeps_entry x e hx)
    (race_known env token h pre).1 hquiet

/-- The last step that writes the entry decides it. -/
theorem entry_of_last (h : y.Opening data k) (pre suf : List RaceStep) (e : RaceStep)
    (hquiet : Along (Race.step env token data k) (fun x e => ¬WritesEntry k x e)
      (run (Race.step env token data k) y (pre ++ [e])) suf) :
    (run (Race.step env token data k) y (pre ++ e :: suf)).cache k =
      ((run (Race.step env token data k) y pre).step env token data k e).cache k := by
  have hes : pre ++ e :: suf = (pre ++ [e]) ++ suf := by
    rw [List.append_assoc, List.singleton_append]
  rw [hes, unwritten_entry h _ _ hquiet, run_append]
  rfl

/-- At any point of the race the window's entry does not list the room exactly
when the last step that wrote it is no set of a list read before the booking, in
a state that offers the room, and when an entry no step wrote did not list it. -/
theorem no_stale_refill_iff (env : Env) (token : Bearer) (data : BookingCreate) (k : AvailKey)
    (hw : k.IsWindow) (y : Race) (h : y.Opening data k) (es : List RaceStep) :
    (∀ ids, (run (Race.step env token data k) y es).cache k = some ids → data.roomId ∉ ids) ↔
      (Along (Race.step env token data k) (fun x e => ¬WritesEntry k x e) y es →
        ∀ ids, y.cache k = some ids → data.roomId ∉ ids) ∧
      ∀ pre i suf seen, es = pre ++ .fill i :: suf →
        (run (Race.step env token data k) y pre).fillers i = .holds seen →
        Along (Race.step env token data k) (fun x e => ¬WritesEntry k x e)
          (run (Race.step env token data k) y (pre ++ [.fill i])) suf →
        seen ∈ y.now :: y.past → data.roomId ∉ availableIds seen k := by
  constructor
  · intro hclean
    refine ⟨fun hquiet ids hids => hclean ids ?_, ?_⟩
    · rw [← hids]
      exact unwritten_entry h [] es hquiet
    · intro pre i suf seen hes hseen hquiet _
      refine hclean _ ?_
      rw [hes, entry_of_last h pre suf _ hquiet]
      exact fill_entry hseen
  · intro hcond ids hids
    rcases along_not_or_last (Race.step env token data k) (WritesEntry k) y es with
      hquiet | ⟨pre, e, suf, rfl, he, hquiet⟩
    · refine hcond.1 hquiet ids ?_
      rw [← hids]
      exact (unwritten_entry h [] es hquiet).symm
    · obtain ⟨habout, hreads⟩ := race_known env token h pre
      rw [entry_of_last h pre suf e hquiet] at hids
      cases e with
      | fill i =>
        obtain ⟨seen, hseen⟩ := he
        rw [fill_entry hseen] at hids
        obtain rfl := Option.some.inj hids
        intro hoffer
        have hold := hreads.held i seen hseen hoffer
        exact hcond.2 pre i suf seen rfl hseen hquiet hold hoffer
      | invalidate =>
        obtain ⟨room, _, hk⟩ := h.window
        have hlt : k.checkIn < k.checkOut := by
          rw [hk]
          exact data.validate_date_range
        rw [invalidate_entry hw hlt habout he] at hids
        cases hids
      | lookup i => exact he.elim
      | read i lag => exact he.elim
      | commit => exact he.elim

end

def sampleWindow : AvailKey := ⟨1, 10, 12⟩

def sampleRace : Race := ⟨sampleStore, [], fun _ => none, fun _ => .search, .ready⟩

def runSample : List RaceStep → Race :=
  run (Race.step (sampleEnv "txn_1") (some 1) sampleStay sampleWindow) sampleRace

theorem sampleRace_opening : sampleRace.Opening sampleStay sampleWindow :=
  ⟨rfl, fun _ _ h => (by cases h), ⟨⟨1, 1, 1, none, none, some 100, none, true⟩, rfl, rfl⟩⟩

def setsBeforeDeletion : List RaceStep := [.lookup 0, .read 0 0, .commit, .fill 0, .invalidate]

theorem no_stale_refill_iff_deleted :
    (runSample setsBeforeDeletion).cache sampleWindow = none ∧
    ∀ pre i suf seen, setsBeforeDeletion = pre ++ .fill i :: suf →
      (runSample pre).fillers i = .holds seen →
      Along (Race.step (sampleEnv "txn_1") (some 1) sampleStay sampleWindow)
        (fun x e => ¬WritesEntry sampleWindow x e) (runSample (pre ++ [.fill i])) suf →
      seen ∈ [sampleStore] → 1 ∉ availableIds seen sampleWindow := by
  have hclean : (runSample setsBeforeDeletion).cache sampleWindow = none := by decide +kernel
  refine ⟨hclean, ((no_stale_refill_iff (sampleEnv "txn_1") (some 1) sampleStay sampleWindow
    (by decide) sampleRace sampleRace_opening setsBeforeDeletion).mp ?_).2⟩
  intro ids hids
  rw [show run _ sampleRace setsBeforeDeletion = runSample setsBeforeDeletion from rfl,
    hclean] at hids
  cases hids

/-- The search sets its list after the deletion; or its replica lags behind. -/
theorem refill_outlives_deletion :
    (∀ es ∈ [[RaceStep.lookup 0, .read 0 0, .commit, .invalidate, .fill 0],
        [.commit, .invalidate, .lookup 0, .read 0 1, .fill 0]],
      (runSample es).booker = .booked sampleBooking ∧ ((runSample es).fillers 0).done = true ∧
      (runSample es).cache sampleWindow = some [1]) ∧ sampleStay.roomId = 1 := by
  refine ⟨fun es hes => ?_, rfl⟩
  simp only [List.mem_cons, List.not_mem_nil, or_false] at hes
  rcases hes with rfl | rfl
  · exact ⟨by decide +kernel, by decide +kernel, by decide +kernel⟩
  · exact ⟨by decide +kernel, by decide +kernel, by decide +kernel⟩

end HotelMs
