import HotelMs.Frame
import HotelMs.Lib.Mirror

/-!
# The hotels index

`api/v1/admin/hotels.py` sends a task of `tasks/indexing_tasks.py` after each
commit, and a worker writes the document of the hotel with `services/search.py`,
which swallows what the index throws. `scripts/meilisearch_seed.py` writes them
all. The index is taken with all it has accepted applied, in order.
-/

namespace HotelMs

open Tables Runs Interleave Mirror

-- the rating as the number its two decimals are, which `float` keeps
structure HotelDocument where
  id : ℤ
  name : String
  description : String
  city : String
  country : String
  countryCode : String
  address : String
  rating : ℚ
  deriving DecidableEq

/-- `_hotel_to_dict`, and the same dict in `meilisearch_seed.py`. -/
def hotelToDict (h : Hotel) : HotelDocument where
  id := h.id
  name := h.name
  description := h.description.getD ""
  city := h.city.getD ""
  country := h.country.getD ""
  countryCode := h.countryCode.getD ""
  address := h.address.getD ""
  rating := h.rating

def reindexHotel (hotelId : ℤ) : Errand ℤ := .refresh fun k => decide (k = hotelId)

def deleteHotelIndex (hotelId : ℤ) : Errand ℤ := .remove hotelId

/-- `main` of `meilisearch_seed.py`: all rows in one call of `add_documents`. -/
def seedHotels : ℤ → Bool := fun _ => true

/-- The task an endpoint sends after its commit. -/
def indexTask (s : Store) : Action → Option (Errand ℤ)
  | .call ⟨env, _, .hotel (.create data)⟩ =>
    match createHotel env s data with
    | .ok r => some (reindexHotel r.1.id)
    | .error _ => none
  | .call ⟨_, _, .hotel (.update hotelId data)⟩ =>
    match updateHotel s hotelId data with
    | .ok r => some (reindexHotel r.1.id)
    | .error _ => none
  | .call ⟨_, _, .hotel (.delete hotelId)⟩ =>
    match deleteHotel s hotelId with
    | .ok _ => some (deleteHotelIndex hotelId)
    | .error _ => none
  | _ => none

/-- What the index is to hold under a hotel's id. -/
def hotelDocument (s : Store) (hotelId : ℤ) : Option HotelDocument :=
  (s.hotels.get hotelId).map hotelToDict

/-- The sequence is past the id, and no row has it. -/
def HotelGone (s : Store) (hotelId : ℤ) : Prop :=
  hotelId < s.hotels.next ∧ s.hotels.get hotelId = none

/-! ### The table as a source -/

theorem hotels_act (ext : Ext) (s : Store) (a : Action) :
    (∃ env token r, a = .call ⟨env, token, .hotel r⟩) ∨
      (act ext s a).hotels = s.hotels ∧ indexTask s a = none := by
  cases a with
  | payment env c => exact Or.inr ⟨processPayment_agree .hotels (by decide), rfl⟩
  | call c =>
    obtain ⟨env, token, r⟩ := c
    have hagree := serve_agree ext env s token r
    cases r with
    | hotel r => exact Or.inl ⟨env, token, r, rfl⟩
    | auth r =>
      exact Or.inr ⟨hagree .hotels (by
        cases r <;> simp [Request.writes, PublicRequest.writes]), rfl⟩
    | guest r =>
      exact Or.inr ⟨hagree .hotels (by
        cases r <;> simp [Request.writes, GuestRequest.writes]), rfl⟩
    | desk r =>
      exact Or.inr ⟨hagree .hotels (by
        cases r <;> simp [Request.writes, DeskRequest.writes]), rfl⟩
    | user r =>
      exact Or.inr ⟨hagree .hotels (by
        cases r <;> simp [Request.writes, UserRequest.writes]), rfl⟩
    | _ => exact Or.inr ⟨hagree .hotels (by simp [Request.writes]), rfl⟩

/-- What a step does to the table, with the task it sends. -/
inductive HotelsStep (s s' : Store) : Option (Errand ℤ) → Prop
  | kept (h : s'.hotels = s.hotels) : HotelsStep s s' none
  | created (row : Hotel) (hid : row.id = s.hotels.next) (h : s'.hotels = s.hotels.insert row) :
    HotelsStep s s' (some (reindexHotel row.id))
  | updated (row : Hotel) (hid : (s.hotels.get row.id).isSome)
    (h : s'.hotels = s.hotels.update row.id fun _ => row) :
    HotelsStep s s' (some (reindexHotel row.id))
  | deleted (hotelId : ℤ) (hid : (s.hotels.get hotelId).isSome)
    (h : s'.hotels = s.hotels.delete hotelId) : HotelsStep s s' (some (deleteHotelIndex hotelId))

theorem hotelsStep_act (ext : Ext) (s : Store) (a : Action) :
    HotelsStep s (act ext s a) (indexTask s a) := by
  rcases hotels_act ext s a with ⟨env, token, r, rfl⟩ | ⟨hkept, hnone⟩
  · cases r with
    | create data =>
      simp only [act, handle, serve, serveHotel, indexTask, committed]
      cases hc : createHotel env s data with
      | error e => exact .kept rfl
      | ok r =>
        obtain ⟨row, hstored, rfl⟩ := createHotel_eq_ok.mp hc
        exact .created row (Hotel.stored_id hstored) rfl
    | update hotelId data =>
      simp only [act, handle, serve, serveHotel, indexTask, committed]
      cases hu : updateHotel s hotelId data with
      | error e => exact .kept rfl
      | ok r =>
        obtain ⟨hotel, changed, row, hget, happly, hstored, rfl⟩ := updateHotel_eq_ok.mp hu
        have hid : row.id = hotelId := by
          rw [Hotel.stored_id hstored, HotelUpdate.apply_id happly]
          exact ((Table.get_eq_some _).mp hget).2
        subst hid
        exact .updated row (by rw [hget]; rfl) rfl
    | delete hotelId =>
      simp only [act, handle, serve, serveHotel, indexTask, committed]
      cases hd : deleteHotel s hotelId with
      | error e => exact .kept rfl
      | ok r =>
        obtain ⟨⟨hotel, hget⟩, -, -, rfl⟩ := deleteHotel_eq_ok.mp hd
        exact .deleted hotelId (by rw [hget]; rfl) rfl
  · rw [hnone]
    exact .kept hkept

theorem get_insert_hotel {t : Table Hotel} {row : Hotel} {k : ℤ} (hk : k ≠ t.next) :
    (t.insert row).get k = t.get k := by
  cases hg : t.get k with
  | some h => exact Table.get_insert_of_get _ hg
  | none =>
    rw [Table.get_eq_none] at hg ⊢
    intro r hr
    rcases (Table.mem_insert _).mp hr with hr | rfl
    · exact hg r hr
    · rw [Keyed.key_stamp]
      exact hk.symm

theorem HotelsStep.gone {s s' : Store} {t : Option (Errand ℤ)} (h : HotelsStep s s' t) {k : ℤ}
    (hk : HotelGone s k) : HotelGone s' k := by
  obtain ⟨hlt, hnone⟩ := hk
  cases h with
  | kept h => exact ⟨by rwa [h], by rwa [h]⟩
  | created row hid h =>
    refine ⟨?_, ?_⟩
    · rw [h]
      exact hlt.trans (Int.lt_succ _)
    · rwa [h, get_insert_hotel hlt.ne]
  | updated row hid h =>
    refine ⟨by rwa [h], ?_⟩
    rw [h, Table.get_update, hnone, Option.map_none]
  | deleted hotelId hid h =>
    refine ⟨by rwa [h], ?_⟩
    rw [h, Table.get_delete, hnone, ite_self]

theorem HotelsStep.untouched {s s' : Store} {t : Option (Errand ℤ)} (h : HotelsStep s s' t)
    {k : ℤ} (hk : ∀ errand, t = some errand → ¬errand.Touches k) :
    hotelDocument s' k = hotelDocument s k := by
  unfold hotelDocument
  cases h with
  | kept h => rw [h]
  | created row hid h =>
    have hne : k ≠ row.id := fun heq => hk _ rfl (decide_eq_true heq)
    rw [h, get_insert_hotel (by rwa [← hid])]
  | updated row hid h =>
    have hne : k ≠ row.id := fun heq => hk _ rfl (decide_eq_true heq)
    rw [h, Table.get_update]
    simp only [hne, if_false, Option.map_id']
  | deleted hotelId hid h =>
    have hne : k ≠ hotelId := fun heq => hk _ rfl heq.symm
    rw [h, Table.get_delete, if_neg hne]

theorem HotelsStep.refreshed {s s' : Store} {keys : ℤ → Bool}
    (h : HotelsStep s s' (some (.refresh keys))) {k : ℤ} (hk : keys k = true) :
    hotelDocument s' k ≠ none := by
  unfold hotelDocument
  rw [Ne, Option.map_eq_none_iff]
  generalize ht : some (Errand.refresh keys) = t at h
  cases h with
  | kept h => cases ht
  | created row hid h =>
    cases ht
    rw [of_decide_eq_true hk, h, hid, Table.get_insert_next]
    exact nofun
  | updated row hid h =>
    cases ht
    rw [of_decide_eq_true hk, h, Table.get_update, Option.map_eq_none_iff]
    exact Option.isSome_iff_ne_none.mp hid
  | deleted hotelId hid h => cases ht

theorem HotelsStep.removed {s s' : Store} {k : ℤ} (h : HotelsStep s s' (some (.remove k))) :
    HotelGone s' k := by
  generalize ht : some (Errand.remove k) = t at h
  cases h with
  | kept h => cases ht
  | created row hid h => cases ht
  | updated row hid h => cases ht
  | deleted hotelId hid h =>
    cases ht
    obtain ⟨hotel, hget⟩ := Option.isSome_iff_exists.mp hid
    obtain ⟨hmem, rfl⟩ := (Table.get_eq_some _).mp hget
    refine ⟨?_, ?_⟩
    · rw [h]
      exact s.hotels.below hotel hmem
    · rw [h, Table.get_delete, if_pos rfl]

def hotelSource (ext : Ext) : Source Store Action ℤ HotelDocument where
  read := hotelDocument
  act s a := (act ext s a, indexTask s a)
  Gone := HotelGone
  read_gone hk := by rw [hotelDocument, hk.2, Option.map_none]
  gone_act {s} {k} a hk := (hotelsStep_act ext s a).gone hk
  read_act s a k hk := (hotelsStep_act ext s a).untouched hk
  refresh_act {s} {a} {keys} {k} ht hk := by
    have hstep := hotelsStep_act ext s a
    rw [show indexTask s a = some (.refresh keys) from ht] at hstep
    exact hstep.refreshed hk
  remove_act {s} {a} {k} ht := by
    have hstep := hotelsStep_act ext s a
    rw [show indexTask s a = some (.remove k) from ht] at hstep
    exact hstep.removed

/-! ### Runs -/

abbrev IndexWorld := Mirror.World Store ℤ HotelDocument

abbrev IndexEvent := Mirror.Event Action ℤ

/-- The store with a hotels index that was seeded from it. -/
def seededIndex (s : Store) : IndexWorld := ⟨⟨s, hotelDocument s⟩, fun _ => .idle⟩

/-- The index is right about every hotel and every id without one, or a task
under way will make it so. -/
def IndexCovered (ext : Ext) (w : IndexWorld) : Prop := Covered (hotelSource ext) w

/-- The index holds the documents of the rows and no others. -/
def IndexCurrent (w : IndexWorld) : Prop := w.data.copy = hotelDocument w.data.source

/-- From a seeded index on, through any requests, workers, failures and second
deliveries: the index is covered throughout exactly if each lost task and each
write of an old document has a task still under way that makes up for it. Then it
holds what the table has whenever no task is left; and a hotel that lost its
cover is wrong in the index once the tasks of the time have run. -/
theorem searchIndex_covered_iff (ext : Ext) (s : Store) (es : List IndexEvent) :
    (Always (Mirror.step (hotelSource ext)) (IndexCovered ext) (seededIndex s) es ↔
      Along (Mirror.step (hotelSource ext)) (MadeUp (hotelSource ext)) (seededIndex s) es) ∧
    (Along (Mirror.step (hotelSource ext)) (MadeUp (hotelSource ext)) (seededIndex s) es →
      Always (Mirror.step (hotelSource ext)) (fun w => Settled w → IndexCurrent w)
        (seededIndex s) es) ∧
    ∀ (drain : List IndexEvent) (hotelId : ℤ), (∀ e ∈ drain, Drains e) →
      ¬CoveredAt (hotelSource ext) (run (Mirror.step (hotelSource ext)) (seededIndex s) es)
        hotelId →
      let w := run (Mirror.step (hotelSource ext)) (seededIndex s) (es ++ drain)
      w.data.copy hotelId ≠ hotelDocument w.data.source hotelId := by
  have hiff : Always (Mirror.step (hotelSource ext)) (Covered (hotelSource ext)) (seededIndex s)
      es ↔ Along (Mirror.step (hotelSource ext)) (MadeUp (hotelSource ext)) (seededIndex s) es :=
    always_covered_iff (fun i k hk => hk.elim) fun k => Or.inl rfl
  refine ⟨hiff, fun h => (hiff.mpr h).mono fun w hc hs => hs.copy_eq hc, ?_⟩
  intro drain hotelId hdrain hlost w
  have hw : w = run (Mirror.step (hotelSource ext)) (run _ (seededIndex s) es) drain :=
    run_append ..
  rw [hw]
  exact copy_ne_of_uncovered hlost hdrain

/-- With the tasks of one hotel in turn, as a single worker takes them, none
lost and an index that answers, the index is what the table has whenever no
task is left. -/
theorem searchIndex_current_of_inTurn (ext : Ext) (s : Store) (es : List IndexEvent)
    (h : Along (Mirror.step (hotelSource ext)) InTurn (seededIndex s) es) :
    Always (Mirror.step (hotelSource ext)) (fun w => Settled w → IndexCurrent w)
      (seededIndex s) es := by
  refine (always_covered_of_inTurn ?_ ?_ ?_ h).mono fun w hc hs => hs.copy_eq hc
  · exact fun i k hk => hk.elim
  · exact fun k => Or.inl rfl
  · exact nofun

/-- A hotel nothing refers to, seeded once more and then deleted. -/
def vacantStore : Store :=
  { Store.empty with
    hotels := Table.empty.insert
      ⟨1, "Grand", none, none, none, none, none, none, none, none, none, 0, 0⟩ }

def seedThenDelete : List IndexEvent :=
  [⟨0, .launch seedHotels⟩, ⟨0, .start⟩, ⟨0, .finish⟩,
    ⟨1, .change (asks 3 (.hotel (.delete 1)))⟩, ⟨1, .send⟩, ⟨1, .finish⟩]

theorem searchIndex_current_sample :
    Always (Mirror.step (hotelSource sampleExt)) (fun w => Settled w → IndexCurrent w)
      (seededIndex vacantStore) seedThenDelete := by
  refine searchIndex_current_of_inTurn sampleExt vacantStore seedThenDelete ?_
  refine ⟨trivial, ?_, trivial, trivial, trivial, ?_, trivial⟩
  · intro k _ i
    by_cases hi : i = 0
    · rw [hi]
      exact id
    · rw [Mirror.step, tasks_of_ne _ hi]
      exact id
  · intro i
    by_cases h1 : i = 1
    · rw [h1]
      exact id
    · rw [Mirror.step, tasks_of_ne _ h1, tasks_of_ne _ h1]
      by_cases h0 : i = 0
      · rw [h0]
        exact id
      · rw [tasks_of_ne _ h0, tasks_of_ne _ h0, tasks_of_ne _ h0]
        exact id

end HotelMs
