import HotelMs.Frame
import HotelMs.Lib.References

/-!
# The constraints of the schema

What the mapped classes declare beside the columns: foreign keys, unique columns
and checks. The rules say what a statement on one table has to look up for a
store to go on meeting them, and how handlers put such statements together.
-/

namespace HotelMs

open Tables References

/-! ### What the rows refer to -/

abbrev RowRef := TableName × ℤ

def refTo (n : TableName) (k : Option ℤ) : List RowRef := k.toList.map fun k => (n, k)

@[simp] theorem mem_refTo {n : TableName} {k : Option ℤ} {p : RowRef} :
    p ∈ refTo n k ↔ ∃ i ∈ k, (n, i) = p := by
  simp [refTo]

instance : Linked RowRef Hotel := ⟨fun _ => [], fun _ _ => rfl⟩
instance : Linked RowRef HotelImage := ⟨fun i => [(.hotels, i.hotelId)], fun _ _ => rfl⟩
instance : Linked RowRef RoomType := ⟨fun t => [(.hotels, t.hotelId)], fun _ _ => rfl⟩
instance : Linked RowRef Room :=
  ⟨fun r => [(.hotels, r.hotelId), (.roomTypes, r.roomTypeId)], fun _ _ => rfl⟩
instance : Linked RowRef BlackoutDate :=
  ⟨fun d => (.hotels, d.hotelId) :: refTo .rooms d.roomId, fun _ _ => rfl⟩
instance : Linked RowRef PricingRule :=
  ⟨fun r => [(.hotels, r.hotelId), (.roomTypes, r.roomTypeId)], fun _ _ => rfl⟩
instance : Linked RowRef User := ⟨fun u => refTo .hotels u.hotelId, fun _ _ => rfl⟩
instance : Linked RowRef Booking :=
  ⟨fun b => [(.hotels, b.hotelId), (.users, b.userId), (.rooms, b.roomId)], fun _ _ => rfl⟩
instance : Linked RowRef Payment :=
  ⟨fun p => [(.bookings, p.bookingId), (.users, p.userId)], fun _ _ => rfl⟩
instance : Linked RowRef Review :=
  ⟨fun r => [(.users, r.userId), (.hotels, r.hotelId)], fun _ _ => rfl⟩
instance : Linked RowRef Notification := ⟨fun n => [(.users, n.userId)], fun _ _ => rfl⟩
instance : Linked RowRef WishlistItem :=
  ⟨fun w => (.users, w.userId) :: (refTo .hotels w.hotelId ++ refTo .rooms w.roomId),
    fun _ _ => rfl⟩
instance : Linked RowRef OneTimeToken := ⟨fun t => [(.users, t.userId)], fun _ _ => rfl⟩
instance : Linked RowRef GuestNote :=
  ⟨fun n => (.users, n.userId) :: refTo .users n.authorId, fun _ _ => rfl⟩
instance : Linked RowRef ActivityLog := ⟨fun l => refTo .users l.userId, fun _ _ => rfl⟩

def facilityLinks (l : List (ℤ × ℤ)) : Set RowRef := {p | ∃ f ∈ l, p = (.hotels, f.1)}

def TableName.links : (n : TableName) → n.Contents → Set RowRef
  | .hotels, t => References.links t
  | .hotelImages, t => References.links t
  | .hotelFacilities, l => facilityLinks l
  | .roomTypes, t => References.links t
  | .rooms, t => References.links t
  | .blackoutDates, t => References.links t
  | .pricingRules, t => References.links t
  | .users, t => References.links t
  | .bookings, t => References.links t
  | .payments, t => References.links t
  | .reviews, t => References.links t
  | .notifications, t => References.links t
  | .wishlistItems, t => References.links t
  | .emailVerifications, t => References.links t
  | .passwordResets, t => References.links t
  | .guestNotes, t => References.links t
  | .activityLogs, t => References.links t

def TableName.keys : (n : TableName) → n.Contents → Set ℤ
  | .hotels, t => References.keys t
  | .hotelImages, t => References.keys t
  | .hotelFacilities, _ => ∅
  | .roomTypes, t => References.keys t
  | .rooms, t => References.keys t
  | .blackoutDates, t => References.keys t
  | .pricingRules, t => References.keys t
  | .users, t => References.keys t
  | .bookings, t => References.keys t
  | .payments, t => References.keys t
  | .reviews, t => References.keys t
  | .notifications, t => References.keys t
  | .wishlistItems, t => References.keys t
  | .emailVerifications, t => References.keys t
  | .passwordResets, t => References.keys t
  | .guestNotes, t => References.keys t
  | .activityLogs, t => References.keys t

def schema : Schema Store TableName RowRef where
  links s n := n.links (s.table n)
  present s := {p | p.2 ∈ p.1.keys (s.table p.1)}

/-! ### Unique columns and checks -/

def WishlistItem.savedHotel (w : WishlistItem) : Option (ℤ × ℤ) :=
  w.hotelId.map fun h => (w.userId, h)

def WishlistItem.savedRoom (w : WishlistItem) : Option (ℤ × ℤ) :=
  w.roomId.map fun r => (w.userId, r)

def PricingRule.Priced (r : PricingRule) : Prop := ¬(r.price = none ∧ r.multiplier = none)

def TableName.Obeys : (n : TableName) → n.Contents → Prop
  | .users, t => t.UniqueBy fun u => some u.email
  | .payments, t => t.UniqueBy Payment.transactionId ∧ ∀ p ∈ t.rows, p.method ∈ paymentMethods
  | .reviews, t => ∀ r ∈ t.rows, ratingRange r.rating
  | .pricingRules, t => ∀ r ∈ t.rows, r.Priced
  | .wishlistItems, t =>
    t.UniqueBy WishlistItem.savedHotel ∧ t.UniqueBy WishlistItem.savedRoom
  | .emailVerifications, t => t.UniqueBy fun r => some r.token
  | .passwordResets, t => t.UniqueBy fun r => some r.token
  | _, _ => True

structure Store.Sound (s : Store) : Prop where
  closed : schema.Closed s
  obeyed : ∀ n : TableName, n.Obeys (s.table n)

/-! ### The rules for one table -/

/-- The tables that the foreign keys of a table refer to. -/
def TableName.parents : TableName → List TableName
  | .hotels => []
  | .hotelImages | .hotelFacilities | .roomTypes | .users => [.hotels]
  | .rooms | .pricingRules => [.hotels, .roomTypes]
  | .blackoutDates => [.hotels, .rooms]
  | .bookings => [.hotels, .users, .rooms]
  | .payments => [.bookings, .users]
  | .reviews => [.users, .hotels]
  | .wishlistItems => [.users, .hotels, .rooms]
  | .notifications | .emailVerifications | .passwordResets | .guestNotes | .activityLogs =>
    [.users]

def TableName.isLeaf : TableName → Bool
  | .hotels | .roomTypes | .rooms | .users | .bookings => false
  | _ => true

theorem mem_parents {n : TableName} {t : n.Contents} {p : RowRef} (h : p ∈ n.links t) :
    p.1 ∈ n.parents := by
  cases n with
  | hotels =>
    obtain ⟨r, _, hlink⟩ := h
    cases hlink
  | hotelFacilities =>
    obtain ⟨f, _, rfl⟩ := h
    exact List.mem_cons_self
  | _ =>
    obtain ⟨r, _, hlink⟩ := h
    simp only [Linked.links, List.mem_cons, List.mem_append, List.not_mem_nil, or_false,
      mem_refTo] at hlink
    grind [TableName.parents]

theorem not_isLeaf {n : TableName} {t : n.Contents} {p : RowRef} (h : p ∈ n.links t) :
    p.1.isLeaf = false := by
  have hmem := mem_parents h
  generalize p.1 = m at hmem
  cases n <;> revert m <;> decide

theorem table_put (s : Store) (n : TableName) (t : n.Contents) : (s.put n t).table n = t := by
  cases n <;> rfl

theorem table_put_of_ne (s : Store) {n m : TableName} (t : n.Contents) (h : m ≠ n) :
    (s.put n t).table m = s.table m :=
  agree_put s n t m fun hmem => h (List.mem_singleton.mp hmem)

variable {s : Store}

theorem present_hotel {k : ℤ} :
    (.hotels, k) ∈ schema.present s ↔ (s.hotels.get k).isSome = true := mem_keys _

theorem present_roomType {k : ℤ} :
    (.roomTypes, k) ∈ schema.present s ↔ (s.roomTypes.get k).isSome = true := mem_keys _

theorem present_room {k : ℤ} :
    (.rooms, k) ∈ schema.present s ↔ (s.rooms.get k).isSome = true := mem_keys _

theorem present_user {k : ℤ} :
    (.users, k) ∈ schema.present s ↔ (s.users.get k).isSome = true := mem_keys _

theorem present_booking {k : ℤ} :
    (.bookings, k) ∈ schema.present s ↔ (s.bookings.get k).isSome = true := mem_keys _

/-- A statement on one table: a row that others may refer to stays, and what the
rows refer to they referred to before, or it is there. -/
theorem Store.Sound.put (h : s.Sound) {n : TableName} {t : n.Contents}
    (hkeys : n.isLeaf = false → n.keys (s.table n) ⊆ n.keys t)
    (hlinks : n.links t ⊆ n.links (s.table n) ∪ schema.present s) (hobeys : n.Obeys t) :
    (s.put n t).Sound := by
  refine ⟨h.closed.step ?_ ?_, ?_⟩
  · intro m p hp
    replace hp : p ∈ m.links ((s.put n t).table m) := hp
    by_cases hm : m = n
    · subst hm
      rw [table_put] at hp
      exact hlinks hp
    · rw [table_put_of_ne s t hm] at hp
      exact Or.inl hp
  · intro m p hp hold
    have hparent : p.1.isLeaf = false := not_isLeaf hp
    show p.2 ∈ p.1.keys ((s.put n t).table p.1)
    by_cases hpn : p.1 = n
    · obtain ⟨_, k⟩ := p
      subst hpn
      rw [table_put]
      exact hkeys hparent hold
    · rw [table_put_of_ne s t hpn]
      exact hold
  · intro m
    by_cases hm : m = n
    · subst hm
      rw [table_put]
      exact hobeys
    · rw [table_put_of_ne s t hm]
      exact h.obeyed m

/-- For a table that nothing refers to. -/
theorem Store.Sound.putLeaf (h : s.Sound) {n : TableName} {t : n.Contents}
    (hleaf : n.isLeaf = true) (hlinks : n.links t ⊆ n.links (s.table n) ∪ schema.present s)
    (hobeys : n.Obeys t) : (s.put n t).Sound :=
  h.put (fun hn => absurd hn (Bool.not_eq_false _ ▸ hleaf)) hlinks hobeys

/-! ### Handlers -/

/-- A sound store stays sound when the handler commits. -/
def StaysSound {α : Type} (s : Store) (x : Except Error (α × Store)) : Prop :=
  ∀ r, x = .ok r → s.Sound → r.2.Sound

section

variable {α β : Type}

theorem StaysSound.pure {a : α} {s' : Store} (h : s.Sound → s'.Sound) :
    StaysSound s (Pure.pure (a, s') : Except Error (α × Store)) := by
  intro r hr
  obtain rfl := pure_eq_ok.mp hr
  exact h

theorem StaysSound.bind {x : Except Error β} {f : β → Except Error (α × Store)}
    (h : ∀ b, x = .ok b → StaysSound s (f b)) : StaysSound s (x >>= f) := by
  intro r hr
  obtain ⟨b, hx, hb⟩ := bind_eq_ok.mp hr
  exact h b hx r hb

theorem StaysSound.bindStore {x : Except Error (β × Store)}
    {f : β × Store → Except Error (α × Store)} (hx : StaysSound s x)
    (h : ∀ b, x = .ok b → StaysSound b.2 (f b)) : StaysSound s (x >>= f) := by
  intro r hr hs
  obtain ⟨b, hb, hf⟩ := bind_eq_ok.mp hr
  exact h b hb r hf (hx b hb hs)

theorem StaysSound.found {o : Option (α × Store)} {e : Error}
    (h : ∀ r, o = some r → s.Sound → r.2.Sound) : StaysSound s (found o e) :=
  fun r hr => h r (found_eq_ok.mp hr)

theorem StaysSound.committed {x : Except Error (α × Store)} (hx : StaysSound s x) (h : s.Sound) :
    (committed s x).Sound := by
  cases x with
  | error e => exact h
  | ok r => exact hx r rfl h

end

end HotelMs
