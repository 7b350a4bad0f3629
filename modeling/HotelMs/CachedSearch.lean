import HotelMs.CacheCoherence
import HotelMs.Quotes

/-!
# A cached search against a plain one

A cache hit fetches the stored ids that are still active and prices them anew.
What happened since the list was stored may change the rooms and prices a plain
search returns, but only in ways the hit also sees.
-/

namespace HotelMs

open Tables ReadThrough Runs

/-- Payments, check-ins, check-outs, changes of pricing rules, room edits that
activate no room, and deactivations. -/
def Spares (s : Store) : Action → Prop
  | .payment _ _ => True
  | .call ⟨_, _, .guest (.makePayment _)⟩ => True
  | .call ⟨_, _, .desk (.checkIn _)⟩ => True
  | .call ⟨_, _, .desk (.checkOut _)⟩ => True
  | .call ⟨_, _, .pricing _⟩ => True
  | .call ⟨_, token, .room (.update roomId data)⟩ =>
    ∀ room r, s.rooms.get roomId = some room → updateRoom s token roomId data = .ok r →
      room.isActive = false → r.1.isActive = false
  | .call ⟨_, _, .room (.delete _)⟩ => True
  | _ => False

theorem not_stales_of_inactive {w : World} {token : Bearer} {roomId : ℤ} {data : RoomUpdate}
    (h : ∀ room r, w.store.rooms.get roomId = some room →
      updateRoom w.store token roomId data = .ok r → room.isActive = false →
      r.1.isActive = false) :
    ¬UpdateRoomStales w token roomId data := by
  intro hs
  obtain ⟨hotelId, room, changed, hc, hg, hhotel, happly, hfk, hoff, hon, _⟩ := hs
  have hkept := h room _ hg
    (updateRoom_eq_ok.mpr ⟨hotelId, room, changed, hc, hg, hhotel, happly, hfk, rfl⟩) hoff
  rw [show changed.isActive = false from hkept] at hon
  cases hon

/-- No such step makes a cached list wrong, and none deletes one. -/
theorem Spares.not_stales {w : World} {a : Action} (h : Spares w.store a) :
    ¬Stales w (.act a) ∧ bookingChange w.store a = none := by
  cases a with
  | payment env c => exact ⟨id, rfl⟩
  | call c =>
    obtain ⟨env, token, r⟩ := c
    cases r with
    | guest r =>
      cases r with
      | makePayment data => exact ⟨id, rfl⟩
      | _ => exact h.elim
    | desk r =>
      cases r with
      | checkIn bookingId => exact ⟨id, rfl⟩
      | checkOut bookingId => exact ⟨id, rfl⟩
      | update bookingId newStatus => exact h.elim
    | pricing r => exact ⟨id, rfl⟩
    | room r =>
      cases r with
      | create data => exact h.elim
      | update roomId data => exact ⟨not_stales_of_inactive h, rfl⟩
      | delete roomId => exact ⟨id, rfl⟩
    | _ => exact h.elim

/-- The world with no other entry than that of the window. -/
def World.only (w : World) (k : AvailKey) (ids : List ℤ) : World :=
  ⟨w.store, put (fun _ => none) k ids⟩

/-- The window's entry is still there, and it is a right one. -/
def Holds (k : AvailKey) (ids : List ℤ) (w : World) : Prop :=
  w.cache k = some ids ∧ (w.only k ids).Coherent

theorem holds_act (ext : Ext) {k : AvailKey} {ids : List ℤ} {w : World} {a : Action}
    (h : Holds k ids w) (ha : Spares w.store a) : Holds k ids (w.act ext a) := by
  obtain ⟨hstale, hchange⟩ := Spares.not_stales (w := w.only k ids) ha
  have hchange : bookingChange w.store a = none := hchange
  have hcache : (w.act ext a).cache = w.cache := by simp only [World.act, hchange]
  have honly : (w.act ext a).only k ids = (w.only k ids).act ext a := by
    simp only [World.act, World.only, hchange]
  refine ⟨by rw [hcache, h.1], ?_⟩
  rw [honly]
  exact (step_coherent_iff ext (w.only k ids) (.act a) h.2).mpr hstale

theorem holds_filled {s : Store} {cache : AvailCache} {k : AvailKey} (hmiss : cache k = none) :
    Holds k (availableIds s k) ⟨s, (searchAvailableRooms s cache k).2⟩ := by
  constructor
  · show (searchAvailableRooms s cache k).2 k = _
    unfold searchAvailableRooms
    simp only [hmiss, put_apply, if_true]
  · intro k' ids hk'
    have hk' : put (fun _ => none) k (availableIds s k) k' = some ids := hk'
    rw [put_apply] at hk'
    split at hk'
    next heq =>
      rw [heq, ← Option.some.inj hk']
      exact availableIds_fits s k
    next => cases hk'

theorem Holds.fits {k : AvailKey} {ids : List ℤ} {w : World} (h : Holds k ids w) :
    Fits w.store k ids := by
  refine h.2 k ids ?_
  show put (fun _ => none) k ids k = some ids
  rw [put_apply, if_pos rfl]

/-- The room ids and total prices of a search. -/
def shown (s : Store) (cache : AvailCache) (k : AvailKey) : Set (ℤ × ℚ) :=
  {p | ∃ q ∈ (searchAvailableRooms s cache k).1, q.room.id = p.1 ∧ q.totalPrice = p.2}

theorem mem_shown {s : Store} {cache : AvailCache} {k : AvailKey} {p : ℤ × ℚ} :
    p ∈ shown s cache k ↔ ∃ room ∈ searchedRooms s cache k, room.id = p.1 ∧
      calculateBookingPrice s room k.checkIn k.checkOut = p.2 := by
  unfold shown
  simp only [Set.mem_ofPred_eq, mem_searchAvailableRooms]
  constructor
  · intro h
    obtain ⟨q, ⟨room, hroom, rfl⟩, hid, htotal⟩ := h
    exact ⟨room, hroom, hid, htotal⟩
  · intro h
    obtain ⟨room, hroom, hid, htotal⟩ := h
    exact ⟨_, ⟨room, hroom, rfl⟩, hid, htotal⟩

/-- Two searches that find the same room ids show the same prices. -/
theorem shown_congr {s : Store} {cache cache' : AvailCache} {k : AvailKey}
    (h : ∀ id, id ∈ (searchedRooms s cache k).map Room.id ↔
      id ∈ (searchedRooms s cache' k).map Room.id) : shown s cache k = shown s cache' k := by
  have hone : ∀ {c c' : AvailCache}, (∀ id, id ∈ (searchedRooms s c k).map Room.id →
      id ∈ (searchedRooms s c' k).map Room.id) → shown s c k ⊆ shown s c' k := by
    intro c c' hsub p hp
    obtain ⟨room, hroom, hid, htotal⟩ := mem_shown.mp hp
    obtain ⟨room', hroom', hsame⟩ := List.mem_map.mp (hsub room.id (List.mem_map_of_mem hroom))
    have heq : room' = room :=
      s.rooms.eq_of_key (searchedRooms_stored hroom') (searchedRooms_stored hroom) hsame
    rw [heq] at hroom'
    exact mem_shown.mpr ⟨room, hroom', hid, htotal⟩
  exact Set.Subset.antisymm (hone fun id => (h id).mp) (hone fun id => (h id).mpr)

/-- After a search filled the cache and any run of such steps, the hit shows the
rooms and prices that a search without the cache would. -/
theorem cached_search_current (ext : Ext) (s : Store) (cache : AvailCache) (k : AvailKey)
    (hmiss : cache k = none) (as : List Action) (w : World)
    (hw : w = run (World.act ext) ⟨s, (searchAvailableRooms s cache k).2⟩ as)
    (h : Along (World.act ext) (fun w a => Spares w.store a)
      ⟨s, (searchAvailableRooms s cache k).2⟩ as) :
    w.cache k ≠ none ∧ shown w.store w.cache k = shown w.store (fun _ => none) k := by
  have hholds : Holds k (availableIds s k) w := by
    rw [hw]
    exact run_invariant (fun _ _ hs ha => holds_act ext hs ha) (holds_filled hmiss) h
  refine ⟨by simp [hholds.1], shown_congr fun id => ?_⟩
  have hhit : searchedRooms w.store w.cache k = cachedRooms w.store (availableIds s k) := by
    unfold searchedRooms
    rw [hholds.1]
  rw [hhit]
  exact hholds.fits id

/-- A search, then the hotel's admin doubles the price of day 11. -/
def repriced : World :=
  run (World.act sampleExt) ⟨sampleStore, (searchAvailableRooms sampleStore (fun _ => none)
      ⟨1, 10, 12⟩).2⟩
    [asks 3 (.pricing (.create ⟨1, 11, 11, none, some 2, 0, by decide⟩))]

theorem cached_search_current_repriced :
    shown repriced.store repriced.cache ⟨1, 10, 12⟩ =
        shown repriced.store (fun _ => none) ⟨1, 10, 12⟩ ∧
    (searchAvailableRooms repriced.store repriced.cache ⟨1, 10, 12⟩).1.map
        (fun q => (q.room.id, q.totalPrice)) = [(1, 300)] := by
  refine ⟨?_, by decide +kernel⟩
  exact (cached_search_current sampleExt sampleStore (fun _ => none) ⟨1, 10, 12⟩ rfl _ repriced rfl
    ⟨trivial, trivial⟩).2

end HotelMs
