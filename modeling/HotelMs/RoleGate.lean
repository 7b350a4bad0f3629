import HotelMs.Frame
import HotelMs.Lib.Runs

/-!
# What callers without a role can change in the inventory

Runs of requests by nobody and by guests, on the tables `hotels`, `room_types`
and `blackout_dates`. The routers of the last two ask for an admin role; the one
of hotels asks for nothing.
-/

namespace HotelMs

open Tables Runs

def Unprivileged (s : Store) (c : Call) : Prop :=
  ∀ user ∈ c.token.bind s.users.get, user.role = .guest

instance (s : Store) (c : Call) : Decidable (Unprivileged s c) :=
  inferInstanceAs (Decidable (∀ user ∈ c.token.bind s.users.get, user.role = .guest))

structure SameInventory (s s' : Store) : Prop where
  hotels : s'.hotels.rows = s.hotels.rows
  roomTypes : s'.roomTypes.rows = s.roomTypes.rows
  blackoutDates : s'.blackoutDates.rows = s.blackoutDates.rows

theorem sameInventory_refl (s : Store) : SameInventory s s := ⟨rfl, rfl, rfl⟩

def inventory : List TableName := [.hotels, .roomTypes, .blackoutDates]

theorem sameInventory_of_agree {ts : List TableName} {s s' : Store} (h : Agree ts s s')
    (hts : ts.all (fun n => n ∉ inventory) = true) : SameInventory s s' := by
  have hout : ∀ n ∈ inventory, s'.table n = s.table n := by
    intro n hn
    refine h n fun hmem => ?_
    have hno := List.all_eq_true.mp hts n hmem
    exact of_decide_eq_true hno hn
  exact ⟨congrArg (fun t : Table Hotel => t.rows) (hout .hotels (by decide)),
    congrArg (fun t : Table RoomType => t.rows) (hout .roomTypes (by decide)),
    congrArg (fun t : Table BlackoutDate => t.rows) (hout .blackoutDates (by decide))⟩

theorem sameInventory_trans_iff {s s' s'' : Store} (h : SameInventory s s') :
    SameInventory s s'' ↔ SameInventory s' s'' := by
  constructor
  · intro h'
    exact ⟨h'.hotels.trans h.hotels.symm, h'.roomTypes.trans h.roomTypes.symm,
      h'.blackoutDates.trans h.blackoutDates.symm⟩
  · intro h'
    exact ⟨h'.hotels.trans h.hotels, h'.roomTypes.trans h.roomTypes,
      h'.blackoutDates.trans h.blackoutDates⟩

/-! ### Behind the role dependency -/

theorem hotelAdmin_refused {s : Store} {token : Bearer}
    (h : ∀ user ∈ token.bind s.users.get, user.role = .guest) (hotelId : ℤ) :
    hotelAdmin s token ≠ .ok hotelId := by
  intro hok
  simp only [hotelAdmin, bind_eq_ok, getCurrentUser_eq_ok] at hok
  obtain ⟨user, ⟨id, rfl, hget⟩, _, _, _, hadmin, _⟩ := hok
  have hguest := h user hget
  rw [requireAdmin_eq_ok, hguest] at hadmin
  rcases hadmin with hadmin | hadmin <;> cases hadmin

theorem hotelAdmin_bind_refused {α : Type} {s : Store} {token : Bearer}
    {f : ℤ → Except Error (α × Store)}
    (h : ∀ user ∈ token.bind s.users.get, user.role = .guest) :
    committed s (hotelAdmin s token >>= f) = s := by
  refine committed_of_refused fun r hr => ?_
  obtain ⟨hotelId, hok, _⟩ := bind_eq_ok.mp hr
  exact hotelAdmin_refused h hotelId hok

theorem serveRoomType_refused {s : Store} {token : Bearer}
    (h : ∀ user ∈ token.bind s.users.get, user.role = .guest) (r : RoomTypeRequest) :
    serveRoomType s token r = s := by
  cases r with
  | create data => exact hotelAdmin_bind_refused h
  | update typeId data => exact hotelAdmin_bind_refused h
  | delete typeId => exact hotelAdmin_bind_refused h

theorem serveBlackout_refused {s : Store} {token : Bearer}
    (h : ∀ user ∈ token.bind s.users.get, user.role = .guest) (r : BlackoutRequest) :
    serveBlackout s token r = s := by
  cases r with
  | create data => exact hotelAdmin_bind_refused h
  | delete blackoutId => exact hotelAdmin_bind_refused h

/-! ### The hotels router -/

/-- The request is refused for its data, or writes what is already there. -/
def HotelRequest.Idle (env : Env) (s : Store) : HotelRequest → Prop
  | .create data => ∀ row, (data.row env.now s.hotels.next).stored ≠ .ok row
  | .update hotelId data => ∀ hotel changed row, s.hotels.get hotelId = some hotel →
    data.apply hotel = .ok changed → changed.stored = .ok row → row = hotel
  | .delete hotelId => ∀ hotel, s.hotels.get hotelId = some hotel →
    s.hotelFacilities.any (fun f => f.1 = hotelId) = true ∨ hotelUnreferenced s hotelId = false

theorem createHotel_same_iff (env : Env) (s : Store) (data : HotelCreate) :
    SameInventory s (committed s (createHotel env s data)) ↔
      (HotelRequest.create data).Idle env s := by
  unfold createHotel
  cases hrow : (data.row env.now s.hotels.next).stored with
  | error e =>
    refine iff_of_true (sameInventory_refl s) fun row h => ?_
    rw [hrow] at h
    cases h
  | ok row =>
    refine iff_of_false (fun h => ?_) fun h => h row hrow
    have hrows : (s.hotels.insert row).rows = s.hotels.rows := h.hotels
    have hlen := congrArg List.length hrows
    simp [Table.insert] at hlen

theorem updateHotel_same_iff (env : Env) (s : Store) (hotelId : ℤ) (data : HotelUpdate) :
    SameInventory s (committed s (updateHotel s hotelId data)) ↔
      (HotelRequest.update hotelId data).Idle env s := by
  constructor
  · intro h hotel changed row hg ha hs
    rw [updateHotel_eq_ok.mpr ⟨hotel, changed, row, hg, ha, hs, rfl⟩] at h
    obtain ⟨hmem, hkey⟩ := (Table.get_eq_some _).mp hg
    have hid : row.id = hotel.id := (Hotel.stored_id hs).trans (HotelUpdate.apply_id ha)
    have hnew : row ∈ (s.hotels.update hotelId fun _ => row).rows :=
      (Table.mem_update_of_get _ hg).mpr (Or.inl (stamp_eq_self hid).symm)
    have hrows : (s.hotels.update hotelId fun _ => row).rows = s.hotels.rows := h.hotels
    rw [hrows] at hnew
    exact s.hotels.eq_of_key hnew hmem hid
  · intro h
    cases hr : updateHotel s hotelId data with
    | error e => exact sameInventory_refl s
    | ok r =>
      obtain ⟨hotel, changed, row, hg, ha, hs, rfl⟩ := updateHotel_eq_ok.mp hr
      obtain rfl := h hotel changed row hg ha hs
      have hsame : (s.hotels.update hotelId fun _ => row) = s.hotels :=
        Table.update_of_fixed _ hg (Keyed.stamp_key row)
      exact ⟨congrArg Table.rows hsame, rfl, rfl⟩

theorem deleteHotel_same_iff (env : Env) (s : Store) (hotelId : ℤ) :
    SameInventory s (committed s (deleteHotel s hotelId)) ↔
      (HotelRequest.delete hotelId).Idle env s := by
  constructor
  · intro h hotel hg
    by_contra hno
    rw [not_or, Bool.not_eq_true, Bool.not_eq_false] at hno
    rw [deleteHotel_eq_ok.mpr ⟨⟨hotel, hg⟩, hno.1, hno.2, rfl⟩] at h
    obtain ⟨hmem, hkey⟩ := (Table.get_eq_some _).mp hg
    have hrows : (s.hotels.delete hotelId).rows = s.hotels.rows := h.hotels
    rw [← hrows] at hmem
    have hkept := ((Table.mem_deleteWhere _).mp hmem).2
    simp [hkey] at hkept
  · intro h
    cases hr : deleteHotel s hotelId with
    | error e => exact sameInventory_refl s
    | ok r =>
      obtain ⟨⟨hotel, hg⟩, hf, hu, _⟩ := deleteHotel_eq_ok.mp hr
      rcases h hotel hg with h | h
      · rw [hf] at h
        cases h
      · rw [hu] at h
        cases h

theorem serveHotel_same_iff (env : Env) (s : Store) (r : HotelRequest) :
    SameInventory s (serveHotel env s r) ↔ r.Idle env s := by
  cases r with
  | create data => exact createHotel_same_iff env s data
  | update hotelId data => exact updateHotel_same_iff env s hotelId data
  | delete hotelId => exact deleteHotel_same_iff env s hotelId

/-! ### Whole runs -/

def HotelsIdle (s : Store) (c : Call) : Prop :=
  match c.request with
  | .hotel r => r.Idle c.env s
  | _ => True

theorem handle_same_iff (ext : Ext) (s : Store) (c : Call) (h : Unprivileged s c) :
    SameInventory s (handle ext s c) ↔ HotelsIdle s c := by
  obtain ⟨env, token, request⟩ := c
  have hsame : ∀ r : Request, r.writes.all (fun n => n ∉ inventory) = true →
      SameInventory s (serve ext env s token r) :=
    fun r hr => sameInventory_of_agree (serve_agree ext env s token r) hr
  cases request with
  | hotel r => exact serveHotel_same_iff env s r
  | roomType r =>
    have hstay : handle ext s ⟨env, token, .roomType r⟩ = s := serveRoomType_refused h r
    rw [hstay]
    exact iff_of_true (sameInventory_refl s) trivial
  | blackout r =>
    have hstay : handle ext s ⟨env, token, .blackout r⟩ = s := serveBlackout_refused h r
    rw [hstay]
    exact iff_of_true (sameInventory_refl s) trivial
  | auth r => exact iff_of_true (hsame _ (by cases r <;> rfl)) trivial
  | guest r => exact iff_of_true (hsame _ (by cases r <;> rfl)) trivial
  | photo r => exact iff_of_true (hsame _ (by cases r <;> rfl)) trivial
  | desk r => exact iff_of_true (hsame _ (by cases r <;> rfl)) trivial
  | room r => exact iff_of_true (hsame _ (by cases r <;> rfl)) trivial
  | pricing r => exact iff_of_true (hsame _ (by cases r <;> rfl)) trivial
  | user r => exact iff_of_true (hsame _ (by cases r <;> rfl)) trivial
  | read => exact iff_of_true (sameInventory_refl s) trivial

/-- A run of requests without a role leaves the inventory as it was at every
point exactly when all its requests to the hotels router are idle. -/
theorem inventory_kept_iff (ext : Ext) (s : Store) (cs : List Call)
    (h : Along (handle ext) Unprivileged s cs) :
    Always (handle ext) (SameInventory s) s cs ↔ Along (handle ext) HotelsIdle s cs := by
  refine always_iff_along (J := fun _ => True) (fun _ _ _ => trivial) ?_ h trivial
    (sameInventory_refl s)
  intro s' c _ hc hs
  rw [sameInventory_trans_iff hs]
  exact handle_same_iff ext s' c hc

def asUser (token : Bearer) (r : Request) : Call := ⟨sampleEnv "txn_1", token, r⟩

/-- A guest asks for a room type and tries to delete a hotel, nobody deletes one
that does not exist. -/
theorem inventory_kept_iff_sample :
    Always (handle sampleExt) (SameInventory sampleStore) sampleStore
        [asUser (some 1) (.roomType (.create ⟨"Suite", none⟩)),
          asUser (some 1) (.hotel (.delete 1)), asUser none (.hotel (.delete 7))] ↔
      Along (handle sampleExt) HotelsIdle sampleStore
        [asUser (some 1) (.roomType (.create ⟨"Suite", none⟩)),
          asUser (some 1) (.hotel (.delete 1)), asUser none (.hotel (.delete 7))] :=
  inventory_kept_iff sampleExt sampleStore _ (by decide +kernel)

theorem nobody_creates_hotel :
    Along (handle sampleExt) Unprivileged sampleStore [asUser none (.hotel (.create
        ⟨"Fake", none, none, none, none, none, none, none, none, none, 0⟩))] ∧
      (run (handle sampleExt) sampleStore [asUser none (.hotel (.create
        ⟨"Fake", none, none, none, none, none, none, none, none, none, 0⟩))]).hotels.rows ≠
        sampleStore.hotels.rows := by
  decide +kernel

end HotelMs
