import HotelMs.Integrity

/-!
# Requests of the administration keep the constraints

A hotel, a room type or a user is deleted only with the rows that refer to it,
or not at all.
-/

namespace HotelMs

open Tables References

variable {s : Store} {ext : Ext} {env : Env} {token : Bearer}

/-! ### Inventory -/

theorem createHotel_keeps {data : HotelCreate} : StaysSound s (createHotel env s data) := by
  intro r hr h
  obtain ⟨row, _, rfl⟩ := createHotel_eq_ok.mp hr
  exact h.put (n := .hotels) (fun _ => keys_subset_insert _)
    (links_insert_subset _ fun p hp => by cases hp) trivial

theorem updateHotel_keeps {hotelId : ℤ} {data : HotelUpdate} :
    StaysSound s (updateHotel s hotelId data) := by
  intro r hr h
  obtain ⟨_, _, row, _, _, _, rfl⟩ := updateHotel_eq_ok.mp hr
  exact h.put (n := .hotels) (fun _ => keys_subset_updateWhere _)
    (links_update_subset _ fun _ _ p hp => by cases hp) trivial

theorem createRoomType_keeps {data : RoomTypeCreate} :
    StaysSound s (createRoomType s token data) := by
  unfold createRoomType
  refine .bind fun hotelId _ => .bind fun _ hfk => .pure fun h => ?_
  refine h.put (n := .roomTypes) (fun _ => keys_subset_insert _) ?_ trivial
  refine links_insert_subset _ ?_
  simp only [Linked.links, List.forall_mem_cons, List.not_mem_nil]
  exact ⟨present_hotel.mpr (ensure_eq_ok.mp hfk), fun _ hnone => hnone.elim⟩

theorem updateRoomType_keeps {typeId : ℤ} {data : RoomTypeCreate} :
    StaysSound s (updateRoomType s token typeId data) := by
  unfold updateRoomType
  refine .bind fun hotelId _ => .bind fun _ _ => .pure fun h => ?_
  exact h.put (n := .roomTypes) (fun _ => keys_subset_updateWhere _)
    (links_update_subset _ fun _ _ p hp => Or.inl hp) trivial

theorem createRoom_keeps {data : RoomCreate} : StaysSound s (createRoom s token data) := by
  intro r hr h
  obtain ⟨hotelId, _, row, _, _, ⟨hhotel, htype⟩, rfl, rfl⟩ := createRoom_eq_ok.mp hr
  refine h.put (n := .rooms) (fun _ => keys_subset_insert _) ?_ trivial
  refine links_insert_subset _ ?_
  simp only [Linked.links, List.forall_mem_cons, List.not_mem_nil]
  exact ⟨present_hotel.mpr hhotel, present_roomType.mpr htype, fun _ hnone => hnone.elim⟩

theorem updateRoom_keeps {roomId : ℤ} {data : RoomUpdate} :
    StaysSound s (updateRoom s token roomId data) := by
  intro r hr h
  obtain ⟨hotelId, room, changed, _, hget, hhotel, happly, htype, rfl⟩ := updateRoom_eq_ok.mp hr
  refine h.put (n := .rooms) (fun _ => keys_subset_updateWhere _) ?_ trivial
  refine links_update_subset _ fun r hr p hp => ?_
  obtain rfl : room = r := Option.some.inj (hget.symm.trans hr)
  simp only [Linked.links, List.mem_cons, List.not_mem_nil, or_false] at hp ⊢
  rcases hp with rfl | rfl
  · rw [(roomUpdate_apply happly).2, hhotel]
    exact Or.inl (Or.inl rfl)
  · exact Or.inr (present_roomType.mpr htype)

theorem none_of_numeric {p n : ℕ} {q stored : Option ℚ} (h : numeric? p n q = .ok stored)
    (hnone : stored = none) : q = none := by
  cases q with
  | none => rfl
  | some q =>
    simp only [numeric?, bind_eq_ok, pure_eq_ok] at h
    obtain ⟨_, _, hsome⟩ := h
    rw [hnone] at hsome
    cases hsome

theorem createPricingRule_keeps {data : PricingRuleCreate} :
    StaysSound s (createPricingRule env s token data) := by
  unfold createPricingRule
  refine .bind fun hotelId _ => .bind fun price hprice => .bind fun multiplier hmultiplier =>
    .bind fun _ hfk => .pure fun h => ?_
  obtain ⟨hhotel, htype⟩ := ensure_eq_ok.mp hfk
  refine h.putLeaf (n := .pricingRules) rfl ?_ ?_
  · refine links_insert_subset _ ?_
    simp only [Linked.links, List.forall_mem_cons, List.not_mem_nil]
    exact ⟨present_hotel.mpr hhotel, present_roomType.mpr htype, fun _ hnone => hnone.elim⟩
  · intro r hr
    rcases (Table.mem_insert _).mp hr with hr | rfl
    · exact h.obeyed .pricingRules r hr
    · rintro ⟨hp, hm⟩
      exact data.model_post_init ⟨none_of_numeric hprice hp, none_of_numeric hmultiplier hm⟩

theorem deletePricingRule_keeps {ruleId : ℤ} :
    StaysSound s (deletePricingRule s token ruleId) := by
  unfold deletePricingRule
  refine .bind fun hotelId _ => .bind fun rule _ => .pure fun h => ?_
  refine h.putLeaf (n := .pricingRules) rfl ?_ ?_
  · exact fun p hp => Or.inl (links_deleteWhere_subset _ hp)
  · exact fun r hr => h.obeyed .pricingRules r ((Table.mem_deleteWhere _).mp hr).1

theorem createBlackout_keeps {data : BlackoutCreate} :
    StaysSound s (createBlackout s token data) := by
  intro r hr h
  obtain ⟨hotelId, row, _, ⟨hhotel, hroom⟩, rfl, rfl⟩ := createBlackout_eq_ok.mp hr
  refine h.putLeaf (n := .blackoutDates) rfl ?_ trivial
  refine links_insert_subset _ fun p hp => ?_
  simp only [Linked.links, List.mem_cons, mem_refTo] at hp
  rcases hp with rfl | ⟨i, hi, rfl⟩
  · exact present_hotel.mpr hhotel
  · exact present_room.mpr (hroom i hi)

theorem deleteBlackout_keeps {blackoutId : ℤ} :
    StaysSound s (deleteBlackout s token blackoutId) := by
  intro r hr h
  obtain ⟨_, d, _, _, _, rfl⟩ := deleteBlackout_eq_ok.mp hr
  exact h.putLeaf (n := .blackoutDates) rfl
    (fun p hp => Or.inl (links_deleteWhere_subset _ hp)) trivial

/-! ### Rows that others refer to -/

/-- Rows go with those that refer to them, or nothing refers to them. -/
theorem Store.Sound.drop {s' : Store} (h : s.Sound) (dropped : Set RowRef)
    (hlinks : ∀ n : TableName, n.links (s'.table n) ⊆ n.links (s.table n))
    (hkept : ∀ p ∈ schema.present s, p.1.isLeaf = false → p ∉ dropped → p ∈ schema.present s')
    (hfree : ∀ n : TableName, ∀ p ∈ n.links (s'.table n), p ∉ dropped)
    (hobeys : ∀ n : TableName, n.Obeys (s'.table n)) : s'.Sound := by
  refine ⟨h.closed.step (fun n p hp => Or.inl (hlinks n hp)) fun n p hp hold => ?_, hobeys⟩
  exact hkept p hold (not_isLeaf hp) (hfree n p hp)

theorem deleteRoomType_keeps {typeId : ℤ} : StaysSound s (deleteRoomType s token typeId) := by
  unfold deleteRoomType
  refine .bind fun hotelId _ => .bind fun type _ => .bind fun _ hfree => .pure fun h => ?_
  obtain ⟨hrooms, hrules⟩ := ensure_eq_ok.mp hfree
  rw [Table.any_eq_false] at hrooms hrules
  refine h.drop {(.roomTypes, type.id)} (fun n => ?_) (fun p hp hparent hne => ?_)
    (fun n p hp hdropped => ?_) (fun n => ?_)
  · cases n with
    | roomTypes => exact links_deleteWhere_subset _
    | _ => exact Set.Subset.rfl
  · obtain ⟨n, k⟩ := p
    cases n with
    | roomTypes =>
      refine mem_keys_deleteWhere _ hp fun r _ hk => decide_eq_false fun hid => hne ?_
      exact congrArg (Prod.mk TableName.roomTypes) (hk.symm.trans hid)
    | _ => exact hp
  · obtain rfl : p = (.roomTypes, type.id) := hdropped
    have hparent := mem_parents hp
    cases n with
    | rooms =>
      obtain ⟨r, hr, hlink⟩ := hp
      have hkey : r.roomTypeId = type.id := by simpa [Linked.links, eq_comm] using hlink
      exact of_decide_eq_false (hrooms r hr) hkey
    | pricingRules =>
      obtain ⟨r, hr, hlink⟩ := hp
      have hkey : r.roomTypeId = type.id := by simpa [Linked.links, eq_comm] using hlink
      exact of_decide_eq_false (hrules r hr) hkey
    | _ => simp [TableName.parents] at hparent
  · cases n with
    | roomTypes => exact trivial
    | _ => exact h.obeyed _

/-- The rows that the deletion of a hotel drops. -/
def droppedWith (s : Store) (hotelId : ℤ) : Set RowRef :=
  {p | p = (.hotels, hotelId) ∨
    ∃ t ∈ s.roomTypes.rows, t.hotelId = hotelId ∧ p = (.roomTypes, t.id)}

/-- Room types and pricing rules of the hotel go with it, also the rules of other
hotels are looked up, as a rule may name any room type. -/
theorem deleteHotel_keeps {hotelId : ℤ} : StaysSound s (deleteHotel s hotelId) := by
  intro r hr h
  obtain ⟨_, hfacilities, hfree, rfl⟩ := deleteHotel_eq_ok.mp hr
  simp only [hotelUnreferenced, Bool.and_eq_true, Bool.not_eq_true', Table.any_eq_false,
    Bool.or_eq_false_iff, Bool.and_eq_false_iff, decide_eq_false_iff_not, ne_eq, not_not] at hfree
  obtain ⟨⟨⟨⟨⟨⟨⟨himages, husers⟩, hbookings⟩, hblackouts⟩, hreviews⟩, hitems⟩, hrooms⟩, hrules⟩ :=
    hfree
  refine h.drop (droppedWith s hotelId) (fun n => ?_) (fun p hp hparent hne => ?_)
    (fun n p hp hdropped => ?_) (fun n => ?_)
  · cases n with
    | hotels => exact links_deleteWhere_subset _
    | roomTypes => exact links_deleteWhere_subset _
    | pricingRules => exact links_deleteWhere_subset _
    | _ => exact Set.Subset.rfl
  · obtain ⟨n, k⟩ := p
    cases n with
    | hotels =>
      refine mem_keys_deleteWhere _ hp fun r _ hk => decide_eq_false fun hid => hne (Or.inl ?_)
      exact congrArg (Prod.mk TableName.hotels) (hk.symm.trans hid)
    | roomTypes =>
      refine mem_keys_deleteWhere _ hp fun r hr hk => decide_eq_false fun hid => hne (Or.inr ?_)
      exact ⟨r, hr, hid, congrArg (Prod.mk TableName.roomTypes) hk.symm⟩
    | pricingRules => cases hparent
    | _ => exact hp
  · have hparent := mem_parents hp
    rcases hdropped with rfl | ⟨t, ht, htype, rfl⟩
    · cases n with
      | hotelImages =>
        refine unreferenced _ himages (fun r hlink => ?_) hp
        simpa [Linked.links, eq_comm] using hlink
      | hotelFacilities =>
        obtain ⟨f, hf, hlink⟩ := hp
        have hnone := List.any_eq_false.mp hfacilities f hf
        simp only [Prod.mk.injEq, true_and] at hlink
        exact hnone (decide_eq_true hlink.symm)
      | roomTypes =>
        obtain ⟨r, hr, hlink⟩ := hp
        have hkey : r.hotelId = hotelId := by simpa [Linked.links, eq_comm] using hlink
        exact of_decide_eq_false ((Table.mem_deleteWhere _).mp hr).2 hkey
      | rooms =>
        obtain ⟨r, hr, hlink⟩ := hp
        have hkey : r.hotelId = hotelId := by simpa [Linked.links, eq_comm] using hlink
        exact (hrooms r hr).1 hkey
      | blackoutDates =>
        refine unreferenced _ hblackouts (fun r hlink => ?_) hp
        simpa [Linked.links, eq_comm] using hlink
      | pricingRules =>
        obtain ⟨r, hr, hlink⟩ := hp
        have hkey : r.hotelId = hotelId := by simpa [Linked.links, eq_comm] using hlink
        exact of_decide_eq_false ((Table.mem_deleteWhere _).mp hr).2 hkey
      | users =>
        refine unreferenced _ husers (fun r hlink => ?_) hp
        simpa [Linked.links, eq_comm] using hlink
      | bookings =>
        refine unreferenced _ hbookings (fun r hlink => ?_) hp
        simpa [Linked.links, eq_comm] using hlink
      | reviews =>
        refine unreferenced _ hreviews (fun r hlink => ?_) hp
        simpa [Linked.links, eq_comm] using hlink
      | wishlistItems =>
        refine unreferenced _ hitems (fun r hlink => ?_) hp
        simpa [Linked.links, eq_comm] using hlink
      | _ => simp [TableName.parents] at hparent
    · cases n with
      | rooms =>
        obtain ⟨r, hr, hlink⟩ := hp
        have hkey : t.id = r.roomTypeId := by simpa [Linked.links] using hlink
        exact ((hrooms r hr).2 t ht).elim (fun hne => hne hkey) fun hne => hne htype
      | pricingRules =>
        obtain ⟨r, hr, hlink⟩ := hp
        have hkey : t.id = r.roomTypeId := by simpa [Linked.links] using hlink
        obtain ⟨hrule, hleft⟩ := (Table.mem_deleteWhere _).mp hr
        rcases hrules r hrule with hown | hother
        · exact of_decide_eq_false hleft hown
        · exact (hother t ht).elim (fun hne => hne hkey) fun hne => hne htype
      | _ => simp [TableName.parents] at hparent
  · cases n with
    | hotels => exact trivial
    | roomTypes => exact trivial
    | pricingRules => exact fun r hr => h.obeyed .pricingRules r ((Table.mem_deleteWhere _).mp hr).1
    | _ => exact h.obeyed _

/-! ### User administration -/

theorem addUser_keeps {data : UserAdminCreate} : StaysSound s (addUser ext env s token data) := by
  unfold addUser
  exact .bind fun _ _ => .bind fun _ _ => .bind fun _ _ => createUser_keeps rfl

theorem adminEdit_keeps {userId : ℤ} {missing : Error} {f : User → User}
    (hf : ∀ u, (f u).id = u.id) : StaysSound s (adminEdit s token userId missing f) := by
  unfold adminEdit
  exact .bind fun _ _ => .bind fun _ _ => .bindStore (updateUser_keeps hf) fun _ _ =>
    .bind fun _ _ => .pure id

theorem editUser_keeps {userId : ℤ} {data : UserAdminUpdate} :
    StaysSound s (editUser ext s token userId data) := by
  unfold editUser
  exact .bind fun _ _ => .bind fun _ _ => .bind fun _ _ => .bind fun _ _ =>
    adminEdit_keeps fun _ => rfl

theorem links_keptNotes {userId : ℤ} {p : RowRef}
    (hp : p ∈ References.links
      ((s.guestNotes.deleteWhere fun n => n.userId = userId).updateWhere
        (fun n => n.authorId = some userId) fun n => { n with authorId := none })) :
    p ∈ References.links s.guestNotes ∧ p ≠ (.users, userId) := by
  obtain ⟨n, hn, hlink⟩ := hp
  obtain ⟨n₀, hn₀, rfl⟩ := List.mem_map.mp hn
  obtain ⟨hrow, hleft⟩ := (Table.mem_deleteWhere _).mp hn₀
  have hother : n₀.userId ≠ userId := of_decide_eq_false hleft
  split at hlink
  next hauthor =>
    obtain rfl : p = (.users, n₀.userId) := List.mem_singleton.mp hlink
    exact ⟨⟨n₀, hrow, List.mem_cons_self⟩, fun heq => hother (Prod.mk.inj heq).2⟩
  next hauthor =>
    refine ⟨⟨n₀, hrow, hlink⟩, fun heq => ?_⟩
    have hkey : n₀.userId = userId ∨ n₀.authorId = some userId := by
      simpa [Linked.links, heq, eq_comm] using hlink
    exact hkey.elim hother fun hid => hauthor (decide_eq_true hid)

theorem removeUser_keeps {userId : ℤ} : StaysSound s (removeUser s token userId) := by
  unfold removeUser
  refine .bind fun _ _ => .bind fun _ _ => .bind fun row _ => .bind fun _ hfree => .pure fun h => ?_
  have hunreferenced := ensure_eq_ok.mp hfree
  simp only [userUnreferenced, Bool.and_eq_true, Bool.not_eq_true', Table.any_eq_false,
    decide_eq_false_iff_not] at hunreferenced
  obtain ⟨⟨⟨⟨⟨⟨⟨hbookings, hpayments⟩, hreviews⟩, hnotifications⟩, hitems⟩, hverifications⟩,
    hresets⟩, hlogs⟩ := hunreferenced
  refine h.drop {(.users, row.id)} (fun n => ?_) (fun p hp hparent hne => ?_)
    (fun n p hp hdropped => ?_) (fun n => ?_)
  · cases n with
    | users => exact links_deleteWhere_subset _
    | guestNotes => exact fun p hp => (links_keptNotes hp).1
    | _ => exact Set.Subset.rfl
  · obtain ⟨n, k⟩ := p
    cases n with
    | users =>
      refine mem_keys_deleteWhere _ hp fun r _ hk => decide_eq_false fun hid => hne ?_
      exact congrArg (Prod.mk TableName.users) (hk.symm.trans hid)
    | guestNotes => cases hparent
    | _ => exact hp
  · obtain rfl : p = (.users, row.id) := hdropped
    have hparent := mem_parents hp
    cases n with
    | bookings =>
      refine unreferenced _ hbookings (fun r hlink => ?_) hp
      simpa [Linked.links, eq_comm] using hlink
    | payments =>
      refine unreferenced _ hpayments (fun r hlink => ?_) hp
      simpa [Linked.links, eq_comm] using hlink
    | reviews =>
      refine unreferenced _ hreviews (fun r hlink => ?_) hp
      simpa [Linked.links, eq_comm] using hlink
    | notifications =>
      refine unreferenced _ hnotifications (fun r hlink => ?_) hp
      simpa [Linked.links, eq_comm] using hlink
    | wishlistItems =>
      refine unreferenced _ hitems (fun r hlink => ?_) hp
      simpa [Linked.links, eq_comm] using hlink
    | emailVerifications =>
      refine unreferenced _ hverifications (fun r hlink => ?_) hp
      simpa [Linked.links, eq_comm] using hlink
    | passwordResets =>
      refine unreferenced _ hresets (fun r hlink => ?_) hp
      simpa [Linked.links, eq_comm] using hlink
    | guestNotes => exact (links_keptNotes hp).2 rfl
    | activityLogs =>
      refine unreferenced _ hlogs (fun r hlink => ?_) hp
      simpa [Linked.links, eq_comm] using hlink
    | _ => simp [TableName.parents] at hparent
  · cases n with
    | users => exact (h.obeyed .users).subset fun r hr => ((Table.mem_deleteWhere _).mp hr).1
    | guestNotes => exact trivial
    | _ => exact h.obeyed _

theorem addGuestNote_keeps {userId : ℤ} {body : NoteCreate} :
    StaysSound s (addGuestNote env s token userId body) := by
  unfold addGuestNote
  refine .bind fun user huser => .bind fun _ _ => .bind fun target htarget => .pure fun h => ?_
  have hfound := found_eq_ok.mp htarget
  refine h.putLeaf (n := .guestNotes) rfl (links_insert_subset _ fun p hp => ?_) trivial
  simp only [Linked.links, List.mem_cons, mem_refTo, Option.mem_def, Option.some.injEq] at hp
  rcases hp with rfl | ⟨_, rfl, rfl⟩
  · exact present_user.mpr (Option.isSome_of_mem hfound)
  · exact caller_present huser

theorem deleteGuestNote_keeps {userId noteId : ℤ} :
    StaysSound s (deleteGuestNote s token userId noteId) := by
  unfold deleteGuestNote
  refine .bind fun _ _ => .bind fun _ _ => .bind fun _ _ => .pure fun h => ?_
  exact h.putLeaf (n := .guestNotes) rfl
    (fun p hp => Or.inl (links_deleteWhere_subset _ hp)) trivial

end HotelMs
