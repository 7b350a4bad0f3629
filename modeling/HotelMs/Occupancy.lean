import HotelMs.Frame
import HotelMs.Lib.Allocation
import HotelMs.Lib.Runs
import Mathlib.Order.CompletePartialOrder
import Mathlib.Order.Interval.Set.Disjoint

/-!
# Occupancy

A live booking holds its room for each of its nights. The bookings of a room
are disjoint exactly when this allocation of room nights is exclusive.
-/

namespace HotelMs

open Tables Allocation

/-- Two live bookings of one room share no night. -/
def NoDoubleBooking (t : Table Booking) : Prop :=
  ∀ b₁ ∈ t.rows, ∀ b₂ ∈ t.rows, b₁.id ≠ b₂.id → b₁.roomId = b₂.roomId → b₁.Live → b₂.Live →
    Disjoint b₁.stay b₂.stay

instance (b₁ b₂ : Booking) : Decidable (Disjoint b₁.stay b₂.stay) :=
  decidable_of_iff _ Set.Ico_disjoint_Ico.symm

instance (t : Table Booking) : Decidable (NoDoubleBooking t) :=
  inferInstanceAs (Decidable (∀ b₁ ∈ t.rows, ∀ b₂ ∈ t.rows, b₁.id ≠ b₂.id →
    b₁.roomId = b₂.roomId → b₁.Live → b₂.Live → Disjoint b₁.stay b₂.stay))

def Booking.nights (b : Booking) : Set (ℤ × ℤ) := { n | n.1 = b.roomId ∧ n.2 ∈ b.stay }

def held (t : Table Booking) (night : ℤ × ℤ) (bookingId : ℤ) : Prop :=
  ∃ b ∈ t.rows, b.id = bookingId ∧ b.Live ∧ night ∈ b.nights

theorem noDoubleBooking_iff (t : Table Booking) : NoDoubleBooking t ↔ Exclusive (held t) := by
  constructor
  · intro h night i j hi hj
    obtain ⟨b₁, hb₁, rfl, hl₁, hr₁, hn₁⟩ := hi
    obtain ⟨b₂, hb₂, rfl, hl₂, hr₂, hn₂⟩ := hj
    by_contra hne
    have hdis := h b₁ hb₁ b₂ hb₂ hne (hr₁.symm.trans hr₂) hl₁ hl₂
    exact Set.disjoint_left.mp hdis hn₁ hn₂
  · intro h b₁ hb₁ b₂ hb₂ hne hroom hl₁ hl₂
    rw [Set.disjoint_left]
    intro night hn₁ hn₂
    have h₁ : held t (b₁.roomId, night) b₁.id := ⟨b₁, hb₁, rfl, hl₁, rfl, hn₁⟩
    have h₂ : held t (b₁.roomId, night) b₂.id := ⟨b₂, hb₂, rfl, hl₂, hroom, hn₂⟩
    exact hne (h _ _ _ h₁ h₂)

/-! ### A booking is added -/

theorem held_insert {t : Table Booking} {b : Booking} (hid : b.id = t.next) (hlive : b.Live)
    (night : ℤ × ℤ) (i : ℤ) :
    held (t.insert b) night i ↔ take (held t) b.nights b.id night i := by
  have hstamp : Keyed.stamp t.next b = b := stamp_eq_self hid
  constructor
  · intro h
    obtain ⟨x, hx, rfl, hl, hn⟩ := h
    rcases (Table.mem_insert _).mp hx with hx | rfl
    · exact Or.inl ⟨x, hx, rfl, hl, hn⟩
    · rw [hstamp] at hn ⊢
      exact Or.inr ⟨hn, rfl⟩
  · intro h
    rcases h with h | h
    · obtain ⟨x, hx, hi, hl, hn⟩ := h
      exact ⟨x, (Table.mem_insert _).mpr (Or.inl hx), hi, hl, hn⟩
    · refine ⟨b, (Table.mem_insert _).mpr (Or.inr hstamp.symm), h.2.symm, hlive, h.1⟩

def RoomFree (t : Table Booking) (roomId : ℤ) (stay : Set ℤ) : Prop :=
  ∀ b ∈ t.rows, b.roomId = roomId → b.Live → Disjoint b.stay stay

theorem freeFor_iff_roomFree {t : Table Booking} {b : Booking}
    (hself : ∀ x ∈ t.rows, x.id = b.id → ¬x.Live) :
    FreeFor (held t) b.nights b.id ↔ RoomFree t b.roomId b.stay := by
  constructor
  · intro h x hx hroom hlive
    rw [Set.disjoint_left]
    intro night hnx hnb
    have hid := h (b.roomId, night) ⟨rfl, hnb⟩ x.id ⟨x, hx, rfl, hlive, hroom.symm, hnx⟩
    exact hself x hx hid hlive
  · intro h night hnight i hi
    obtain ⟨x, hx, rfl, hlive, hnx⟩ := hi
    have hdis := h x hx (hnx.1.symm.trans hnight.1) hlive
    exact absurd hnight.2 (Set.disjoint_left.mp hdis hnx.2)

theorem noDoubleBooking_insert_iff {t : Table Booking} {b : Booking} (hid : b.id = t.next)
    (hlive : b.Live) :
    NoDoubleBooking (t.insert b) ↔ NoDoubleBooking t ∧ RoomFree t b.roomId b.stay := by
  have hself : ∀ x ∈ t.rows, x.id = b.id → ¬x.Live := fun x hx hx' =>
    absurd (hx'.trans hid) (t.key_ne_next hx)
  have heq : held (t.insert b) = take (held t) b.nights b.id := by
    funext night i
    exact propext (held_insert hid hlive night i)
  rw [noDoubleBooking_iff, noDoubleBooking_iff, heq, exclusive_take_iff,
    freeFor_iff_roomFree hself]

/-! ### A status is set -/

theorem mem_setStatus {s : Store} {id : ℤ} {status : BookingStatus} {b x : Booking}
    (hb : s.bookings.get id = some b) :
    x ∈ (setStatus s id status).bookings.rows ↔
      x = { b with status } ∨ (x ∈ s.bookings.rows ∧ x.id ≠ id) :=
  Table.mem_update_of_get _ hb

/-- Nobody gains a room night unless a cancelled booking is made live. -/
theorem noDoubleBooking_setStatus {s : Store} {id : ℤ} {status : BookingStatus}
    (h : NoDoubleBooking s.bookings)
    (hkeep : ∀ b, s.bookings.get id = some b → status ≠ .cancelled → b.Live) :
    NoDoubleBooking (setStatus s id status).bookings := by
  cases hb : s.bookings.get id with
  | none =>
    have hsame : (setStatus s id status).bookings = s.bookings := Table.update_of_get_eq_none _ hb
    rw [hsame]
    exact h
  | some b =>
    rw [noDoubleBooking_iff] at h ⊢
    refine h.mono fun night i hi => ?_
    obtain ⟨x, hx, rfl, hl, hn⟩ := hi
    rcases (mem_setStatus hb).mp hx with rfl | hx
    · exact ⟨b, ((Table.get_eq_some _).mp hb).1, rfl, hkeep b hb hl, hn⟩
    · exact ⟨x, hx.1, rfl, hl, hn⟩

theorem held_revive {s : Store} {id : ℤ} {status : BookingStatus} {b : Booking}
    (hb : s.bookings.get id = some b) (hdead : ¬b.Live) (hlive : status ≠ .cancelled)
    (night : ℤ × ℤ) (i : ℤ) :
    held (setStatus s id status).bookings night i ↔
      take (held s.bookings) b.nights b.id night i := by
  have hmem := (Table.get_eq_some _).mp hb
  constructor
  · intro h
    obtain ⟨x, hx, rfl, hl, hn⟩ := h
    rcases (mem_setStatus hb).mp hx with rfl | hx
    · exact Or.inr ⟨hn, rfl⟩
    · exact Or.inl ⟨x, hx.1, rfl, hl, hn⟩
  · intro h
    rcases h with h | h
    · obtain ⟨x, hx, rfl, hl, hn⟩ := h
      refine ⟨x, (mem_setStatus hb).mpr (Or.inr ⟨hx, fun hid => ?_⟩), rfl, hl, hn⟩
      obtain rfl := s.bookings.eq_of_key hx hmem.1 (hid.trans hmem.2.symm)
      exact hdead hl
    · exact ⟨{ b with status }, (mem_setStatus hb).mpr (Or.inl rfl), h.2.symm, hlive, h.1⟩

theorem noDoubleBooking_revive_iff {s : Store} {id : ℤ} {status : BookingStatus} {b : Booking}
    (hb : s.bookings.get id = some b) (hdead : ¬b.Live) (hlive : status ≠ .cancelled) :
    NoDoubleBooking (setStatus s id status).bookings ↔
      NoDoubleBooking s.bookings ∧ RoomFree s.bookings b.roomId b.stay := by
  have hmem := (Table.get_eq_some _).mp hb
  have hself : ∀ x ∈ s.bookings.rows, x.id = b.id → ¬x.Live := by
    intro x hx hid
    obtain rfl := s.bookings.eq_of_key hx hmem.1 hid
    exact hdead
  have heq : held (setStatus s id status).bookings = take (held s.bookings) b.nights b.id := by
    funext night i
    exact propext (held_revive hb hdead hlive night i)
  rw [noDoubleBooking_iff, noDoubleBooking_iff, heq, exclusive_take_iff,
    freeFor_iff_roomFree hself]

end HotelMs
