import HotelMs.Models

/-!
# Availability (`services/availability.py`)
-/

namespace HotelMs

open Tables

def BlackoutDate.inWindow (hotelId : ℤ) (checkIn checkOut : ℤ) (d : BlackoutDate) : Bool :=
  d.hotelId = hotelId && checkIn ≤ d.date && d.date < checkOut

def checkBlackoutDates (s : Store) (hotelId roomId : ℤ) (checkIn checkOut : ℤ) : Bool :=
  s.blackoutDates.any fun d =>
    d.inWindow hotelId checkIn checkOut && (d.roomId = none || d.roomId = some roomId)

/-- The `WHERE` clause of `overlapping_room_ids`. -/
def Booking.overlapping (hotelId : ℤ) (checkIn checkOut : ℤ) (b : Booking) : Bool :=
  b.hotelId = hotelId && b.status ≠ .cancelled &&
    !(b.checkOut ≤ checkIn || checkOut ≤ b.checkIn)

def getAvailableRooms (s : Store) (hotelId : ℤ) (checkIn checkOut : ℤ) : List Room :=
  if s.blackoutDates.any fun d => d.inWindow hotelId checkIn checkOut && d.roomId = none then []
  else s.rooms.select fun r =>
    r.hotelId = hotelId &&
      !s.bookings.any (fun b => b.overlapping hotelId checkIn checkOut && b.roomId = r.id) &&
      !s.blackoutDates.any
        (fun d => d.inWindow hotelId checkIn checkOut && d.roomId = some r.id) &&
      r.isActive

def isAvailable (s : Store) (hotelId roomId : ℤ) (checkIn checkOut : ℤ) : Bool :=
  (getAvailableRooms s hotelId checkIn checkOut).any fun r => r.id = roomId

theorem overlapping_eq_true {b : Booking} {hotelId checkIn checkOut : ℤ} :
    b.overlapping hotelId checkIn checkOut = true ↔
      b.hotelId = hotelId ∧ b.Live ∧ checkIn < b.checkOut ∧ b.checkIn < checkOut := by
  simp only [Booking.overlapping, Booking.Live, Bool.and_eq_true, decide_eq_true_eq,
    Bool.not_eq_true', Bool.or_eq_false_iff, decide_eq_false_iff_not, not_le, and_assoc]

theorem overlapping_of_share {b : Booking} {hotelId checkIn checkOut night : ℤ}
    (hh : b.hotelId = hotelId) (hl : b.Live) (hb : night ∈ b.stay)
    (hn : night ∈ Set.Ico checkIn checkOut) : b.overlapping hotelId checkIn checkOut = true := by
  simp only [Booking.stay, Set.mem_Ico] at hb hn
  exact overlapping_eq_true.mpr ⟨hh, hl, by omega, by omega⟩

theorem share_of_overlapping {b : Booking} {hotelId checkIn checkOut : ℤ}
    (h : b.overlapping hotelId checkIn checkOut = true) (hb : b.checkIn < b.checkOut)
    (hn : checkIn < checkOut) : ∃ night ∈ b.stay, night ∈ Set.Ico checkIn checkOut := by
  obtain ⟨_, _, h₁, h₂⟩ := overlapping_eq_true.mp h
  refine ⟨max b.checkIn checkIn, ?_, ?_⟩
  · simp only [Booking.stay, Set.mem_Ico]
    omega
  · simp only [Set.mem_Ico]
    omega

theorem mem_getAvailableRooms {s : Store} {hotelId : ℤ} {checkIn checkOut : ℤ} {r : Room} :
    r ∈ getAvailableRooms s hotelId checkIn checkOut ↔
      r ∈ s.rooms.rows ∧ r.hotelId = hotelId ∧ r.isActive = true ∧
        checkBlackoutDates s hotelId r.id checkIn checkOut = false ∧
        ∀ b ∈ s.bookings.rows, b.roomId = r.id →
          b.overlapping hotelId checkIn checkOut = false := by
  unfold getAvailableRooms checkBlackoutDates
  split
  next hw =>
    -- a hotel-wide blackout day empties the list and blocks every room
    have hblock : s.blackoutDates.any (fun d => d.inWindow hotelId checkIn checkOut &&
        (d.roomId = none || d.roomId = some r.id)) = true := by
      rw [Table.any_eq_true] at hw ⊢
      obtain ⟨d, hd, hp⟩ := hw
      simp only [Bool.and_eq_true, decide_eq_true_eq] at hp
      exact ⟨d, hd, by simp [hp.1, hp.2]⟩
    simp [hblock]
  next hw =>
    rw [Bool.not_eq_true, Table.any_eq_false] at hw
    simp only [Bool.and_eq_false_iff, decide_eq_false_iff_not] at hw
    simp only [Table.mem_select, Bool.and_eq_true, decide_eq_true_eq, Bool.not_eq_true',
      Table.any_eq_false, Bool.and_eq_false_iff, decide_eq_false_iff_not, Bool.or_eq_false_iff]
    grind

theorem isAvailable_iff {s : Store} {hotelId roomId : ℤ} {checkIn checkOut : ℤ} :
    isAvailable s hotelId roomId checkIn checkOut = true ↔
      ∃ r ∈ getAvailableRooms s hotelId checkIn checkOut, r.id = roomId := by
  simp [isAvailable, List.any_eq_true]

theorem not_overlapping_of_isAvailable {s : Store} {hotelId roomId : ℤ} {checkIn checkOut : ℤ}
    (h : isAvailable s hotelId roomId checkIn checkOut = true) {b : Booking}
    (hb : b ∈ s.bookings.rows) (hr : b.roomId = roomId) :
    b.overlapping hotelId checkIn checkOut = false := by
  obtain ⟨r, hmem, rfl⟩ := isAvailable_iff.mp h
  exact (mem_getAvailableRooms.mp hmem).2.2.2.2 b hb hr

end HotelMs
