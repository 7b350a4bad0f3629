import HotelMs.Checkout
import HotelMs.HotelPaging
import HotelMs.Lib.Numerals
import HotelMs.Lib.Runs

/-!
# The hotels and their rooms (`pages/public/Hotels.jsx`)

The page lists the first two hundred hotels and, once one is entered, its rooms.
Nothing is called off: the answer about the rooms of a hotel that was left is
taken as any other. The tables do not change meanwhile; hotels of one rating are
listed in another order at every request.
-/

namespace HotelMs

open Tables Paging Runs

/-! ### The rooms of a hotel -/

/-- `/search/rooms`, ordered by the id. -/
def browseRooms (s : Store) (hotelId : Option ℤ) : List Room :=
  (s.rooms.select fun r => r.isActive && hotelId.all fun h => h = 0 || r.hotelId = h).insertionSort
    fun a b => a.id ≤ b.id

inductive RoomCategory
  | standard
  | deluxe
  | juniorSuite
  | penthouse
  | residence
  deriving DecidableEq

/-- `trim` -/
def jsTrim (text : List Char) : List Char :=
  ((text.dropWhile jsSpace).reverse.dropWhile jsSpace).reverse

/-- `/word/i.test(text)` for a word of small letters. -/
def hasWord (word : String) (text : List Char) : Bool :=
  decide (word.toList <:+: text.map Char.toLower)

def deriveCategory (typeName : List Char) : RoomCategory :=
  if hasWord "presidential" typeName then .penthouse
  else if hasWord "suite" typeName then .juniorSuite
  else if hasWord "deluxe" typeName then .deluxe
  else .standard

/-- A room as it is listed. What is only printed is left out. -/
structure RoomCard where
  id : ℤ
  hotelId : ℤ
  name : List Char
  category : RoomCategory
  pricePerNight : ℚ
  capacity : ℤ
  rating : ℚ
  deriving DecidableEq

def normalizeRoom (s : Store) (r : Room) : RoomCard :=
  let rawTypeName := ((s.roomTypes.get r.roomTypeId).map fun t => t.name.toList).getD []
  let trimmed := jsTrim rawTypeName
  let typeName := if 4 ≤ jsLength trimmed then trimmed else []
  { id := r.id
    hotelId := r.hotelId
    name := if typeName ≠ [] then typeName
      else "Room ".toList ++ ((r.roomNumber.filter (· ≠ "")).map String.toList).getD
        (Numerals.intText r.id)
    category := deriveCategory (if typeName ≠ [] then typeName else rawTypeName)
    pricePerNight := r.basePrice.getD 0
    capacity := (r.capacity.filter (· ≠ 0)).getD 2
    rating := 9 / 2 }

/-! ### The page -/

inductive CapacityLabel
  | one
  | two
  | threeOrFour
  | fiveOrMore
  deriving DecidableEq

def CapacityLabel.fits (capacity : ℤ) : CapacityLabel → Bool
  | .one => capacity = 1
  | .two => capacity = 2
  | .threeOrFour => 3 ≤ capacity ∧ capacity ≤ 4
  | .fiveOrMore => 5 ≤ capacity

inductive RoomSort
  | recommended
  | priceAsc
  | priceDesc
  | rating
  deriving DecidableEq

structure RoomFilters where
  priceRange : ℤ × ℤ
  selectedTypes : List RoomCategory
  selectedCaps : List CapacityLabel
  selectedAmenities : List String
  deriving DecidableEq

/-- The amenities are not looked at. -/
def RoomFilters.admits (f : RoomFilters) (r : RoomCard) : Bool :=
  decide (f.priceRange.1 ≤ r.pricePerNight ∧ r.pricePerNight ≤ f.priceRange.2) &&
    (f.selectedTypes.isEmpty || f.selectedTypes.contains r.category) &&
    (f.selectedCaps.isEmpty || f.selectedCaps.any fun c => c.fits r.capacity)

def noRoomFilters : RoomFilters := ⟨(0, 2400), [], [], []⟩

def toggleItem {α : Type} [DecidableEq α] (items : List α) (item : α) : List α :=
  if items.contains item then items.filter (· ≠ item) else items ++ [item]

inductive PageMode
  | hotels
  | rooms
  deriving DecidableEq

/-- A first page with the tries before it, or the second page. -/
inductive ListRequest
  | first (tries : ℕ)
  | second
  deriving DecidableEq

/-- `hotel_id` of the URL; the inner `none` is no number. -/
abbrev HotelLink := Option (Option ℤ)

structure HotelsPage where
  mode : PageMode
  link : HotelLink
  hotels : List Hotel
  hotelsLoading : Bool
  hotelsError : Bool
  listRequests : List ListRequest
  selectedHotel : Option Hotel
  rooms : List Room
  roomsLoading : Bool
  roomsError : Bool
  roomRequests : List ℤ
  filters : RoomFilters
  sortBy : RoomSort

/-- `order` is how the database answers `ORDER BY rating DESC` this time. -/
inductive HotelsEvent
  | listAnswered (n : ℕ) (order : List Hotel → List Hotel)
  | listFails (n : ℕ)
  | retryList
  | enter (i : ℕ)
  | back
  | visit (link : HotelLink)
  | roomsAnswered (n : ℕ)
  | roomsFails (n : ℕ)
  | retryRooms
  | lowest (v : ℤ)
  | highest (v : ℤ)
  | toggleType (t : RoomCategory)
  | toggleCap (c : CapacityLabel)
  | toggleAmenity (a : String)
  | clearFilters
  | order (sort : RoomSort)

def hundredPerPage : PerPage := ⟨100, by decide, by decide⟩

section

variable (ilike : String → String → Bool) (s : Store)

namespace HotelsPage

variable (p : HotelsPage)

def filteredRooms : List RoomCard :=
  let list := (p.rooms.map (normalizeRoom s)).filter p.filters.admits
  match p.sortBy with
  | .recommended => list
  | .priceAsc => list.mergeSort fun a b => decide (a.pricePerNight ≤ b.pricePerNight)
  | .priceDesc => list.mergeSort fun a b => decide (b.pricePerNight ≤ a.pricePerNight)
  | .rating => list.mergeSort fun a b => decide (b.rating ≤ a.rating)

def fetchHotels : HotelsPage :=
  { p with
    hotelsLoading := true, hotelsError := false, listRequests := p.listRequests ++ [.first 0] }

def fetchRooms (hotel : Hotel) : HotelsPage :=
  { p with
    roomsLoading := true, roomsError := false, roomRequests := p.roomRequests ++ [hotel.id] }

def enterRoomMode (hotel : Hotel) : HotelsPage :=
  fetchRooms
    { p with
      selectedHotel := some hotel, mode := .rooms, rooms := [], roomsError := false
      link := some (some hotel.id) }
    hotel

def backToHotels : HotelsPage :=
  { p with mode := .hotels, selectedHotel := none, rooms := [], link := none }

/-- The effect on the list and the URL. -/
def autoEnter : HotelsPage :=
  match p.link with
  | some (some id) =>
    match p.hotels.find? fun h => h.id = id with
    | some h => if p.mode = .hotels then p.enterRoomMode h else p
    | none => p
  | _ => p

/-- The first request is sent at once. -/
def opened (link : HotelLink) : HotelsPage :=
  fetchHotels
    { mode := if link.isSome then .rooms else .hotels, link, hotels := [], hotelsLoading := true
      hotelsError := false, listRequests := [], selectedHotel := none, rooms := []
      roomsLoading := false, roomsError := false, roomRequests := [], filters := noRoomFilters
      sortBy := .recommended }

def listPage (order : List Hotel → List Hotel) (pg : ℕ) : List Hotel :=
  browseHotels ilike order s ⟨none, none, none⟩ hundredPerPage pg

/-- An answered first page is followed by the second. -/
def listed (order : List Hotel → List Hotel) : ListRequest → HotelsPage
  | .first _ =>
    autoEnter
      { p with
        hotels := listPage ilike s order 1, hotelsLoading := false
        listRequests := p.listRequests ++ [.second] }
  | .second =>
    let list2 := listPage ilike s order 2
    if list2 = [] then p else autoEnter { p with hotels := p.hotels ++ list2 }

/-- A first page is tried three times. The time between two tries passes before the
next request is answered. -/
def listFailed : ListRequest → HotelsPage
  | .first tries =>
    if tries + 1 < 3 then { p with listRequests := p.listRequests ++ [.first (tries + 1)] }
    else { p with hotelsError := true, hotelsLoading := false }
  | .second => p

@[grind =] def step : HotelsEvent → HotelsPage
  | .listAnswered n order =>
    match p.listRequests[n]? with
    | some r => { p with listRequests := p.listRequests.eraseIdx n }.listed ilike s order r
    | none => p
  | .listFails n =>
    match p.listRequests[n]? with
    | some r => { p with listRequests := p.listRequests.eraseIdx n }.listFailed r
    | none => p
  | .retryList =>
    if p.mode = .hotels ∧ p.hotelsLoading = false ∧ p.hotelsError = true then p.fetchHotels else p
  | .enter i =>
    match p.hotels[i]? with
    | some h =>
      if p.mode = .hotels ∧ p.hotelsLoading = false ∧ p.hotelsError = false then p.enterRoomMode h
      else p
    | none => p
  | .back => if p.mode = .rooms then p.backToHotels else p
  | .visit link => autoEnter { p with link }
  | .roomsAnswered n =>
    match p.roomRequests[n]? with
    | some hotelId =>
      { p with
        rooms := browseRooms s (some hotelId), roomsLoading := false
        roomRequests := p.roomRequests.eraseIdx n }
    | none => p
  | .roomsFails n =>
    match p.roomRequests[n]? with
    | some _ =>
      { p with roomsError := true, roomsLoading := false
               roomRequests := p.roomRequests.eraseIdx n }
    | none => p
  | .retryRooms =>
    match p.selectedHotel with
    | some h =>
      if p.mode = .rooms ∧ p.roomsLoading = false ∧ p.roomsError = true then p.fetchRooms h else p
    | none => p
  | .lowest v =>
    if v < p.filters.priceRange.2 - 50 then
      { p with filters := { p.filters with priceRange := (v, p.filters.priceRange.2) } }
    else p
  | .highest v =>
    if p.filters.priceRange.1 + 50 < v then
      { p with filters := { p.filters with priceRange := (p.filters.priceRange.1, v) } }
    else p
  | .toggleType t =>
    { p with filters := { p.filters with selectedTypes := toggleItem p.filters.selectedTypes t } }
  | .toggleCap c =>
    { p with filters := { p.filters with selectedCaps := toggleItem p.filters.selectedCaps c } }
  | .toggleAmenity a =>
    { p with
      filters := { p.filters with selectedAmenities := toggleItem p.filters.selectedAmenities a } }
  | .clearFilters => { p with filters := noRoomFilters }
  | .order sort => { p with sortBy := sort }

end HotelsPage

end

/-! ### The list of hotels -/

section

variable {ilike : String → String → Bool} {order : List Hotel → List Hotel} {s : Store}
  {p q : HotelsPage}

/-- The rows that are paged. -/
def browsedHotels (ilike : String → String → Bool) (s : Store) : List Hotel :=
  s.hotels.select (BrowseFilters.admits ilike ⟨none, none, none⟩)

/-- What the page holds of the list. -/
structure ListPart where
  hotels : List Hotel
  loading : Bool
  error : Bool
  requests : List ListRequest

def HotelsPage.listPart (p : HotelsPage) : ListPart :=
  ⟨p.hotels, p.hotelsLoading, p.hotelsError, p.listRequests⟩

/-- Where the list is between two events, with the answers it is cut out of. -/
inductive ListPhase (rows : List Hotel) : ListPart → Prop
  | asking (tries : ℕ) : ListPhase rows ⟨[], true, false, [.first tries]⟩
  | refused : ListPhase rows ⟨[], false, true, []⟩
  | half (l : List Hotel) (hl : Arrangement Hotel.rating rows l) :
    ListPhase rows ⟨l.take 100, false, false, [.second]⟩
  | one (l : List Hotel) (hl : Arrangement Hotel.rating rows l) :
    ListPhase rows ⟨l.take 100, false, false, []⟩
  | two (l l' : List Hotel) (hl : Arrangement Hotel.rating rows l)
    (hl' : Arrangement Hotel.rating rows l') :
    ListPhase rows ⟨l.take 100 ++ slice 100 100 l', false, false, []⟩

namespace HotelsPage

@[simp] theorem listPart_enterRoomMode (h : Hotel) :
    (p.enterRoomMode h).listPart = p.listPart := rfl

@[simp] theorem listPart_autoEnter : p.autoEnter.listPart = p.listPart := by
  unfold autoEnter
  split
  · split
    · split <;> rfl
    · rfl
  · rfl

theorem listPage_one : listPage ilike s order 1 = (order (browsedHotels ilike s)).take 100 := by
  unfold listPage browseHotels slice
  rfl

theorem listPart_listed_first (tries : ℕ) : (p.listed ilike s order (.first tries)).listPart =
    ⟨(order (browsedHotels ilike s)).take 100, false, p.hotelsError,
      p.listRequests ++ [.second]⟩ := by
  unfold listed
  rw [listPart_autoEnter, listPage_one]
  rfl

theorem listPart_listed_second : (p.listed ilike s order .second).listPart =
    ⟨p.hotels ++ slice 100 100 (order (browsedHotels ilike s)), p.hotelsLoading, p.hotelsError,
      p.listRequests⟩ := by
  show _ = (⟨p.hotels ++ listPage ilike s order 2, _, _, _⟩ : ListPart)
  rw [listed]
  split
  next hnone =>
    rw [hnone, List.append_nil]
    rfl
  next =>
    rw [listPart_autoEnter]
    rfl

theorem of_getElem?_singleton {r r' : ListRequest} {n : ℕ} (h : [r][n]? = some r') :
    n = 0 ∧ r = r' := by
  cases n with
  | zero => exact ⟨rfl, Option.some_inj.mp h⟩
  | succ n => cases h

theorem fields_of_listPart {part : ListPart} (h : p.listPart = part) :
    p.listRequests = part.requests ∧ p.hotels = part.hotels ∧ p.hotelsLoading = part.loading ∧
      p.hotelsError = part.error :=
  ⟨congrArg ListPart.requests h, congrArg ListPart.hotels h, congrArg ListPart.loading h,
    congrArg ListPart.error h⟩

theorem listPhase_answered (h : ListPhase (browsedHotels ilike s) p.listPart)
    (horder : Arranges Hotel.rating order) (n : ℕ) :
    ListPhase (browsedHotels ilike s) (p.step ilike s (.listAnswered n order)).listPart := by
  have hanswer := horder (browsedHotels ilike s)
  rw [step]
  split
  next r hr =>
    generalize hpart : p.listPart = part at h
    obtain ⟨hrequests, hhotels, hloading, herror⟩ := fields_of_listPart hpart
    rw [hrequests] at hr ⊢
    cases h with
    | asking tries =>
      obtain ⟨rfl, rfl⟩ := of_getElem?_singleton hr
      rw [listPart_listed_first, herror]
      exact .half _ hanswer
    | refused => cases hr
    | half l hl =>
      obtain ⟨rfl, rfl⟩ := of_getElem?_singleton hr
      rw [listPart_listed_second, hhotels, hloading, herror]
      exact .two l _ hl hanswer
    | one l hl => cases hr
    | two l l' hl hl' => cases hr
  next => exact h

theorem listPhase_fails (h : ListPhase (browsedHotels ilike s) p.listPart) (n : ℕ) :
    ListPhase (browsedHotels ilike s) (p.step ilike s (.listFails n)).listPart := by
  rw [step]
  split
  next r hr =>
    generalize hpart : p.listPart = part at h
    obtain ⟨hrequests, hhotels, hloading, herror⟩ := fields_of_listPart hpart
    rw [hrequests] at hr ⊢
    cases h with
    | asking tries =>
      obtain ⟨rfl, rfl⟩ := of_getElem?_singleton hr
      rw [listFailed]
      split
      next =>
        show ListPhase _ ⟨p.hotels, p.hotelsLoading, p.hotelsError, [.first (tries + 1)]⟩
        rw [hhotels, hloading, herror]
        exact .asking _
      next =>
        show ListPhase _ ⟨p.hotels, false, true, []⟩
        rw [hhotels]
        exact .refused
    | refused => cases hr
    | half l hl =>
      obtain ⟨rfl, rfl⟩ := of_getElem?_singleton hr
      show ListPhase _ ⟨p.hotels, p.hotelsLoading, p.hotelsError, []⟩
      rw [hhotels, hloading, herror]
      exact .one l hl
    | one l hl => cases hr
    | two l l' hl hl' => cases hr
  next => exact h

theorem listPhase_retry (h : ListPhase (browsedHotels ilike s) p.listPart) :
    ListPhase (browsedHotels ilike s) (p.step ilike s .retryList).listPart := by
  rw [step]
  split
  next hshown =>
    generalize hpart : p.listPart = part at h
    obtain ⟨hrequests, hhotels, hloading, herror⟩ := fields_of_listPart hpart
    rw [hshown.2.1] at hloading
    rw [hshown.2.2] at herror
    show ListPhase _ ⟨p.hotels, true, false, p.listRequests ++ [.first 0]⟩
    rw [hrequests, hhotels]
    -- the button is there after three failures only
    cases h with
    | asking tries => cases hloading
    | refused => exact .asking 0
    | half l hl => cases herror
    | one l hl => cases herror
    | two l l' hl hl' => cases herror
  next => exact h

/-- A list is answered in the order of the ratings. -/
def Ordered : HotelsEvent → Prop
  | .listAnswered _ order => Arranges Hotel.rating order
  | _ => True

theorem listPhase_step (h : ListPhase (browsedHotels ilike s) p.listPart) (e : HotelsEvent)
    (horder : Ordered e) :
    ListPhase (browsedHotels ilike s) (p.step ilike s e).listPart := by
  cases e with
  | listAnswered n order => exact listPhase_answered h horder n
  | listFails n => exact listPhase_fails h n
  | retryList => exact listPhase_retry h
  | enter i =>
    rw [step]
    split
    · split <;> exact h
    · exact h
  | back =>
    rw [step]
    split <;> exact h
  | visit link =>
    rw [step, listPart_autoEnter]
    exact h
  | roomsAnswered n =>
    rw [step]
    split <;> exact h
  | roomsFails n =>
    rw [step]
    split <;> exact h
  | retryRooms =>
    rw [step]
    split
    · split <;> exact h
    · exact h
  | lowest v =>
    rw [step]
    split <;> exact h
  | highest v =>
    rw [step]
    split <;> exact h
  | toggleType t => exact h
  | toggleCap c => exact h
  | toggleAmenity a => exact h
  | clearFilters => exact h
  | order sort => exact h

end HotelsPage

/-! ### The rooms of the hotel entered -/

/-- What the page holds of the rooms. -/
structure RoomPart where
  mode : PageMode
  selectedHotel : Option Hotel
  rooms : List Room
  loading : Bool
  error : Bool
  requests : List ℤ

def HotelsPage.roomPart (p : HotelsPage) : RoomPart :=
  ⟨p.mode, p.selectedHotel, p.rooms, p.roomsLoading, p.roomsError, p.roomRequests⟩

/-- What an event that is no answer about rooms can do to them. -/
inductive RoomMove (r : RoomPart) (e : HotelsEvent) : RoomPart → Prop
  | stay : RoomMove r e r
  | entered (h : Hotel) (hmode : r.mode = .hotels) :
    RoomMove r e ⟨.rooms, some h, [], true, false, r.requests ++ [h.id]⟩
  | left (hback : e = .back) : RoomMove r e ⟨.hotels, none, [], r.loading, r.error, r.requests⟩
  | failed (n : ℕ) (hn : n < r.requests.length) :
    RoomMove r e ⟨r.mode, r.selectedHotel, r.rooms, false, true, r.requests.eraseIdx n⟩
  | again (h : Hotel) (hselected : r.selectedHotel = some h) :
    RoomMove r e ⟨r.mode, r.selectedHotel, r.rooms, true, false, r.requests ++ [h.id]⟩

/-- What stands on the page is what the server has of the hotel. -/
def RightRooms (s : Store) (r : RoomPart) : Prop :=
  r.mode = .rooms → r.loading = false → r.error = false → ∀ h ∈ r.selectedHotel,
    r.rooms = browseRooms s (some h.id)

theorem rightRooms_move {r r' : RoomPart} {e : HotelsEvent} (h : RightRooms s r)
    (hmove : RoomMove r e r') : RightRooms s r' := by
  cases hmove with
  | stay => exact h
  | entered hotel hmode => exact fun _ hloading => Bool.noConfusion hloading
  | left hback => exact fun hmode => PageMode.noConfusion hmode
  | failed n hn => exact fun _ _ herror => Bool.noConfusion herror
  | again hotel hselected => exact fun _ hloading => Bool.noConfusion hloading

namespace HotelsPage

theorem move_autoEnter (e : HotelsEvent) : RoomMove p.roomPart e p.autoEnter.roomPart := by
  unfold autoEnter
  split
  · split
    next hotel _ =>
      split
      next hmode => exact .entered hotel hmode
      next => exact .stay
    next => exact .stay
  · exact .stay

theorem move_listed (r : ListRequest) (e : HotelsEvent) :
    RoomMove p.roomPart e (p.listed ilike s order r).roomPart := by
  cases r with
  | first tries => exact move_autoEnter (p := { p with
      hotels := listPage ilike s order 1, hotelsLoading := false
      listRequests := p.listRequests ++ [.second] }) e
  | second =>
    rw [listed]
    split
    · exact .stay
    · exact move_autoEnter (p := { p with hotels := p.hotels ++ listPage ilike s order 2 }) e

theorem step_move (e : HotelsEvent) (h : ∀ n, e ≠ .roomsAnswered n) :
    RoomMove p.roomPart e (p.step ilike s e).roomPart := by
  cases e with
  | listAnswered n order =>
    rw [step]
    split
    next r hr => exact move_listed (p := { p with listRequests := p.listRequests.eraseIdx n }) r _
    next => exact .stay
  | listFails n =>
    rw [step]
    split
    next r hr =>
      cases r with
      | first tries =>
        rw [listFailed]
        split <;> exact .stay
      | second => exact .stay
    next => exact .stay
  | retryList =>
    rw [step]
    split <;> exact .stay
  | enter i =>
    rw [step]
    split
    next hotel _ =>
      split
      next hshown => exact .entered hotel hshown.1
      next => exact .stay
    next => exact .stay
  | back =>
    rw [step]
    split
    · exact .left rfl
    · exact .stay
  | visit link => exact move_autoEnter (p := { p with link }) _
  | roomsAnswered n => exact absurd rfl (h n)
  | roomsFails n =>
    rw [step]
    split
    next hn => exact .failed n (List.getElem?_eq_some_iff.mp hn).1
    next => exact .stay
  | retryRooms =>
    rw [step]
    split
    next hotel hselected =>
      split
      · exact .again hotel hselected
      · exact .stay
    next => exact .stay
  | lowest v =>
    rw [step]
    split <;> exact .stay
  | highest v =>
    rw [step]
    split <;> exact .stay
  | toggleType t => exact .stay
  | toggleCap c => exact .stay
  | toggleAmenity a => exact .stay
  | clearFilters => exact .stay
  | order sort => exact .stay

/-- An answer that is taken while a hotel is shown holds the rooms of that hotel. -/
def AnswersSelected (s : Store) (p : HotelsPage) : HotelsEvent → Prop
  | .roomsAnswered n => ∀ k ∈ p.roomRequests[n]?, p.mode = .rooms → p.roomsError = false →
      ∀ h ∈ p.selectedHotel, browseRooms s (some k) = browseRooms s (some h.id)
  | _ => True

theorem rightRooms_step_iff (h : RightRooms s p.roomPart) (e : HotelsEvent) :
    RightRooms s (p.step ilike s e).roomPart ↔ AnswersSelected s p e := by
  by_cases hanswer : ∃ n, e = .roomsAnswered n
  · obtain ⟨n, rfl⟩ := hanswer
    rw [step, AnswersSelected]
    split
    next k hk =>
      rw [hk]
      constructor
      · intro hright j hj hmode herror hotel hhotel
        obtain rfl := Option.mem_some_iff.mp hj
        exact hright hmode rfl herror hotel hhotel
      · intro hfits hmode _ herror hotel hhotel
        exact hfits k rfl hmode herror hotel hhotel
    next hnone =>
      rw [hnone]
      exact iff_of_true h fun k hk => absurd hk (Option.not_mem_none _)
  · have hother : ∀ n, e ≠ .roomsAnswered n := fun n hn => hanswer ⟨n, hn⟩
    have hmoved : RightRooms s (p.step ilike s e).roomPart :=
      rightRooms_move h (step_move e hother)
    refine iff_of_true hmoved ?_
    unfold AnswersSelected
    split
    next n => exact absurd rfl (hother n)
    next => trivial

/-- Rooms are asked for only when no answer about rooms is outstanding. -/
def AsksInTurn (ilike : String → String → Bool) (s : Store) (p : HotelsPage) (e : HotelsEvent) :
    Prop :=
  p.roomRequests.length < (p.step ilike s e).roomRequests.length → p.roomRequests = []

instance (e : HotelsEvent) : Decidable (AsksInTurn ilike s p e) :=
  inferInstanceAs (Decidable (_ → _))

end HotelsPage

/-- Every outstanding answer is about the hotel shown. -/
def OwnRequests (r : RoomPart) : Prop :=
  r.mode = .rooms → ∀ k ∈ r.requests, ∃ h ∈ r.selectedHotel, h.id = k

theorem ownRequests_erase {r : RoomPart} (h : OwnRequests r) (rooms : List Room)
    (loading error : Bool) (n : ℕ) :
    OwnRequests ⟨r.mode, r.selectedHotel, rooms, loading, error, r.requests.eraseIdx n⟩ :=
  fun hmode k hk => h hmode k (List.mem_of_mem_eraseIdx hk)

theorem ownRequests_move {r r' : RoomPart} {e : HotelsEvent} (h : OwnRequests r)
    (hmove : RoomMove r e r')
    (hturn : r.requests.length < r'.requests.length → r.requests = []) : OwnRequests r' := by
  have hone : ∀ k, r.requests.length < (r.requests ++ [k]).length := by
    intro k
    rw [List.length_append, List.length_singleton]
    exact Nat.lt_succ_self _
  cases hmove with
  | stay => exact h
  | entered hotel hmode =>
    intro _ k hk
    dsimp only at hk
    rw [hturn (hone _), List.nil_append, List.mem_singleton] at hk
    exact ⟨hotel, rfl, hk.symm⟩
  | left hback => exact fun hmode => PageMode.noConfusion hmode
  | failed n hn => exact ownRequests_erase h _ _ _ n
  | again hotel hselected =>
    intro _ k hk
    dsimp only at hk
    rw [hturn (hone _), List.nil_append, List.mem_singleton] at hk
    exact ⟨hotel, hselected, hk.symm⟩

namespace HotelsPage

theorem ownRequests_step (h : OwnRequests p.roomPart) (e : HotelsEvent)
    (hturn : AsksInTurn ilike s p e) :
    OwnRequests (p.step ilike s e).roomPart := by
  by_cases hanswer : ∃ n, e = .roomsAnswered n
  · obtain ⟨n, rfl⟩ := hanswer
    rw [step]
    split
    · exact ownRequests_erase h _ _ _ n
    · exact h
  · exact ownRequests_move h (step_move e fun n hn => hanswer ⟨n, hn⟩) hturn

theorem answersSelected_of_own (h : OwnRequests p.roomPart) (e : HotelsEvent) :
    AnswersSelected s p e := by
  unfold AnswersSelected
  split
  next n =>
    intro k hk hmode _ hotel hhotel
    obtain ⟨own, hown, rfl⟩ := h hmode k (List.mem_of_getElem? hk)
    obtain rfl := Option.mem_unique hown hhotel
    rfl
  next => trivial

theorem filteredRooms_perm :
    (p.filteredRooms s).Perm ((p.rooms.map (normalizeRoom s)).filter p.filters.admits) := by
  unfold filteredRooms
  dsimp only
  split
  · exact .refl _
  · exact List.mergeSort_perm _ _
  · exact List.mergeSort_perm _ _
  · exact List.mergeSort_perm _ _

end HotelsPage

/-! ### Every run -/

/-- Two pages are the front of one answer where no rating is on both of them. -/
theorem exists_front {rows l l' : List Hotel} (hsplit : ¬Splits Hotel.rating rows 100)
    (hl : Arrangement Hotel.rating rows l) (hl' : Arrangement Hotel.rating rows l') :
    ∃ l'', Arrangement Hotel.rating rows l'' ∧
      l.take 100 ++ slice 100 100 l' = l''.take 200 := by
  refine ⟨_, arrangement_take_append_drop hsplit hl hl', ?_⟩
  have hlength : l'.length = l.length := (hl'.1.trans hl.1.symm).length_eq
  unfold slice
  rw [List.take_append, List.length_take, List.take_take]
  by_cases hlong : 100 ≤ l.length
  · rw [Nat.min_eq_left hlong]
    rfl
  · rw [List.drop_eq_nil_of_le (by omega), List.take_nil, List.take_nil]
    rfl

/-- Hotels of the database, and where no page ends between hotels of one rating the
front of one answer to the whole query, each hotel once. -/
structure HotelsPage.ListsHotels (ilike : String → String → Bool) (s : Store) (p : HotelsPage) :
    Prop where
  stored : ∀ h ∈ p.hotels, h ∈ s.hotels.rows
  single : p.listRequests.length ≤ 1
  once : ¬Splits Hotel.rating (browsedHotels ilike s) 100 → p.hotels.Nodup
  front : ¬Splits Hotel.rating (browsedHotels ilike s) 100 → p.hotelsLoading = false →
    p.hotelsError = false → ∃ l, Arrangement Hotel.rating (browsedHotels ilike s) l ∧
      (p.hotels = l.take 100 ∨ p.hotels = l.take 200)

theorem listsHotels_of_phase (h : ListPhase (browsedHotels ilike s) p.listPart) :
    p.ListsHotels ilike s := by
  have hmem : ∀ {l}, Arrangement Hotel.rating (browsedHotels ilike s) l → ∀ h ∈ l,
      h ∈ s.hotels.rows := fun hl h hh => List.mem_of_mem_filter (hl.1.mem_iff.mp hh)
  have hnodup : ∀ {l}, Arrangement Hotel.rating (browsedHotels ilike s) l → l.Nodup := fun hl =>
    hl.1.nodup_iff.mpr (nodup_select _)
  generalize hpart : p.listPart = part at h
  obtain ⟨hrequests, hhotels, hloading, herror⟩ := HotelsPage.fields_of_listPart hpart
  cases h with
  | asking tries =>
    refine ⟨?_, hrequests ▸ le_rfl, fun _ => hhotels ▸ List.nodup_nil, fun _ h => ?_⟩
    · rw [hhotels]
      exact fun _ h => absurd h List.not_mem_nil
    · rw [hloading] at h
      cases h
  | refused =>
    refine ⟨?_, hrequests ▸ Nat.zero_le _, fun _ => hhotels ▸ List.nodup_nil, fun _ _ h => ?_⟩
    · rw [hhotels]
      exact fun _ h => absurd h List.not_mem_nil
    · rw [herror] at h
      cases h
  | half l hl =>
    refine ⟨?_, hrequests ▸ le_rfl, fun _ => ?_, fun _ _ _ => ⟨l, hl, .inl hhotels⟩⟩
    · rw [hhotels]
      exact fun h hh => hmem hl h (List.mem_of_mem_take hh)
    · rw [hhotels]
      exact (hnodup hl).sublist (List.take_sublist _ _)
  | one l hl =>
    refine ⟨?_, hrequests ▸ Nat.zero_le _, fun _ => ?_, fun _ _ _ => ⟨l, hl, .inl hhotels⟩⟩
    · rw [hhotels]
      exact fun h hh => hmem hl h (List.mem_of_mem_take hh)
    · rw [hhotels]
      exact (hnodup hl).sublist (List.take_sublist _ _)
  | two l l' hl hl' =>
    refine ⟨?_, hrequests ▸ Nat.zero_le _, fun hsplit => ?_, fun hsplit _ _ => ?_⟩
    · rw [hhotels]
      intro h hh
      rcases List.mem_append.mp hh with hh | hh
      · exact hmem hl h (List.mem_of_mem_take hh)
      · exact hmem hl' h (List.mem_of_mem_drop (List.mem_of_mem_take hh))
    · obtain ⟨l'', hwhole, hfront⟩ := exists_front hsplit hl hl'
      rw [hhotels]
      show (l.take 100 ++ slice 100 100 l').Nodup
      rw [hfront]
      exact (hnodup hwhole).sublist (List.take_sublist _ _)
    · obtain ⟨l'', hwhole, hfront⟩ := exists_front hsplit hl hl'
      exact ⟨l'', hwhole, .inr (hhotels.trans hfront)⟩

/-- After any clicks, answers and failures. -/
theorem hotels_page_lists_each_hotel_once (ilike : String → String → Bool) (s : Store)
    (link : HotelLink) (es : List HotelsEvent) (horders : ∀ e ∈ es, HotelsPage.Ordered e) :
    Always (HotelsPage.step ilike s) (HotelsPage.ListsHotels ilike s) (.opened link) es := by
  have hphase : Always (HotelsPage.step ilike s)
      (fun p => ListPhase (browsedHotels ilike s) p.listPart) (.opened link) es :=
    always_of_along (fun _ e h he => HotelsPage.listPhase_step h e he) (.asking 0)
      (along_of_forall fun _ e he => horders e he)
  exact hphase.mono fun _ h => listsHotels_of_phase h

def plaza : Hotel := ⟨0, "Plaza", none, none, none, none, none, none, none, none, none, 5, 0⟩

/-- Hundred hotels of one rating, and one below. -/
def ratedHotels : Store :=
  { grandHotels 1 with
    hotels := (List.range 100).foldl (fun hotels _ => hotels.insert plaza) (grandHotels 1).hotels }

theorem countP_inserted {h : Hotel} {q : Hotel → Bool} (hq : ∀ id, q { h with id } = true)
    (hotels : Table Hotel) (n : ℕ) :
    ((List.range n).foldl (fun hotels _ => hotels.insert h) hotels).rows.countP q =
      hotels.rows.countP q + n := by
  induction n with
  | zero => rfl
  | succ n ih =>
    rw [List.range_succ, List.foldl_append, List.foldl_cons, List.foldl_nil, Table.insert,
      List.countP_append, ih, stamp_hotel, List.countP_singleton, if_pos (hq _), Nat.add_assoc]

theorem countP_ratedHotels : (browsedHotels sampleIlike ratedHotels).countP
    (fun h => decide (5 ≤ h.rating)) = 100 := by
  have hinserted := countP_inserted (h := plaza)
    (q := fun h => decide (5 ≤ h.rating) && BrowseFilters.admits sampleIlike ⟨none, none, none⟩ h)
    (fun _ => by rfl) (grandHotels 1).hotels 100
  have hgrand : (grandHotels 1).hotels.rows.countP (fun h => decide (5 ≤ h.rating) &&
      BrowseFilters.admits sampleIlike ⟨none, none, none⟩ h) = 0 := by decide +kernel
  rw [hgrand, Nat.zero_add] at hinserted
  exact List.countP_filter.trans hinserted

theorem not_splits_ratedHotels :
    ¬Splits Hotel.rating (browsedHotels sampleIlike ratedHotels) 100 := by
  rintro ⟨v, habove, hatLeast⟩
  have hfive := countP_ratedHotels
  by_cases hv : v < 5
  · have hmono : (browsedHotels sampleIlike ratedHotels).countP (fun h => decide (5 ≤ h.rating)) ≤
        countAbove Hotel.rating (browsedHotels sampleIlike ratedHotels) v :=
      List.countP_mono_left fun h _ hh => decide_eq_true (hv.trans_le (of_decide_eq_true hh))
    omega
  · have hmono : countAtLeast Hotel.rating (browsedHotels sampleIlike ratedHotels) v ≤
        (browsedHotels sampleIlike ratedHotels).countP (fun h => decide (5 ≤ h.rating)) :=
      List.countP_mono_left fun h _ hh =>
        decide_eq_true ((not_lt.mp hv).trans (of_decide_eq_true hh))
    omega

/-- The second page comes from a database that lists the other way round. -/
theorem hotels_page_lists_each_hotel_once_sample :
    (run (HotelsPage.step sampleIlike ratedHotels) (.opened none)
      [.listFails 0, .listAnswered 0 (sortDescending Hotel.rating),
        .listAnswered 0 fun rows => sortDescending Hotel.rating rows.reverse]).hotels.Nodup := by
  have hsort := arranges_sortDescending Hotel.rating
  refine (Always.last (hotels_page_lists_each_hotel_once sampleIlike ratedHotels none _
    fun e he => ?_)).once not_splits_ratedHotels
  rcases List.mem_cons.mp he with rfl | he
  · trivial
  rcases List.mem_pair.mp he with rfl | rfl
  · exact hsort
  · exact fun rows => ⟨(hsort rows.reverse).1.trans (List.reverse_perm rows), (hsort _).2⟩

/-- Room mode with no hotel. -/
def noHotelRooms : RoomPart := ⟨.rooms, none, [], false, false, []⟩

theorem step_noHotelRooms (h : p.roomPart = noHotelRooms) {e : HotelsEvent} (hback : e ≠ .back) :
    (p.step ilike s e).roomPart = noHotelRooms := by
  by_cases hanswer : ∃ n, e = .roomsAnswered n
  · obtain ⟨n, rfl⟩ := hanswer
    have hrequests : p.roomRequests = [] := congrArg RoomPart.requests h
    rw [HotelsPage.step, hrequests, List.getElem?_nil]
    exact h
  · have hmove : RoomMove p.roomPart e (p.step ilike s e).roomPart :=
      HotelsPage.step_move e fun n hn => hanswer ⟨n, hn⟩
    rw [h] at hmove
    generalize (p.step ilike s e).roomPart = next at hmove ⊢
    cases hmove with
    | stay => rfl
    | entered h hmode => cases hmode
    | left hleft => exact absurd hleft hback
    | failed n hn => exact absurd hn (Nat.not_lt_zero _)
    | again h hselected => cases hselected

/-- Opened with a hotel in the URL, the page asks for no rooms and shows none until the
visitor goes back. -/
theorem hotels_page_link_shows_no_rooms (id : Option ℤ) (es : List HotelsEvent)
    (hstays : ∀ e ∈ es, e ≠ .back) :
    Always (HotelsPage.step ilike s)
      (fun p => p.roomPart = noHotelRooms ∧ p.filteredRooms s = []) (.opened (some id)) es := by
  have hkept : Always (HotelsPage.step ilike s) (fun p => p.roomPart = noHotelRooms)
      (.opened (some id)) es :=
    always_of_along (P := fun _ e => e ≠ HotelsEvent.back)
      (fun _ _ h hback => step_noHotelRooms h hback) rfl (along_of_forall fun _ e he => hstays e he)
  refine hkept.mono fun p h => ⟨h, ?_⟩
  have hrooms : p.rooms = [] := congrArg RoomPart.rooms h
  have hperm := HotelsPage.filteredRooms_perm (s := s) (p := p)
  rw [hrooms, List.map_nil, List.filter_nil] at hperm
  exact hperm.eq_nil

/-- A visitor who reloads the page of a hotel. -/
theorem hotels_page_link_shows_no_rooms_sample :
    Always (HotelsPage.step sampleIlike sampleStore)
      (fun p => p.roomPart = noHotelRooms ∧ p.filteredRooms sampleStore = [])
      (.opened (some (some 1))) [.listAnswered 0 id, .listAnswered 0 id, .clearFilters] := by
  refine hotels_page_link_shows_no_rooms (some 1) _ fun e he => ?_
  rcases List.mem_cons.mp he with rfl | he
  · exact fun h => nomatch h
  rcases List.mem_pair.mp he with rfl | rfl
  · exact fun h => nomatch h
  · exact fun h => nomatch h

/-- Nothing but an answer of a hotel that was left puts wrong rooms on the page. -/
theorem hotels_page_shows_rooms_iff (link : HotelLink) (es : List HotelsEvent) :
    Always (HotelsPage.step ilike s) (fun p => RightRooms s p.roomPart) (.opened link) es ↔
      Along (HotelsPage.step ilike s) (HotelsPage.AnswersSelected s) (.opened link) es :=
  always_iff_along (J := fun _ => True) (Q := fun _ _ => True) (fun _ _ _ => trivial)
    (fun _ e _ _ h => HotelsPage.rightRooms_step_iff h e) (along_of_forall fun _ _ _ => trivial)
    trivial fun _ _ _ _ hh => absurd hh (Option.not_mem_none _)

/-- The active rooms of a hotel. -/
def hotelCards (s : Store) (h : Hotel) : List RoomCard :=
  (s.rooms.select fun r => r.isActive && (h.id = 0 || r.hotelId = h.id)).map (normalizeRoom s)

theorem hotels_page_shows_rooms_in_turn (link : HotelLink) (es : List HotelsEvent)
    (hturn : Along (HotelsPage.step ilike s) (HotelsPage.AsksInTurn ilike s)
      (.opened link) es) :
    Always (HotelsPage.step ilike s)
      (fun p => p.mode = .rooms → p.roomsLoading = false → p.roomsError = false →
        ∀ h ∈ p.selectedHotel,
          (p.filteredRooms s).Perm ((hotelCards s h).filter p.filters.admits))
      (.opened link) es := by
  have hstart : OwnRequests (HotelsPage.opened link).roomPart := fun _ k hk =>
    absurd hk List.not_mem_nil
  have hright : RightRooms s (HotelsPage.opened link).roomPart := fun _ _ _ h hh =>
    absurd hh (Option.not_mem_none _)
  have hkept : Always (HotelsPage.step ilike s)
      (fun p => OwnRequests p.roomPart ∧ RightRooms s p.roomPart) (.opened link) es :=
    always_of_along (fun p e h ht => ⟨HotelsPage.ownRequests_step h.1 e ht,
      (HotelsPage.rightRooms_step_iff h.2 e).mpr (HotelsPage.answersSelected_of_own h.1 e)⟩)
      ⟨hstart, hright⟩ hturn
  refine hkept.mono fun p h hmode hloading herror hotel hhotel => ?_
  have hrooms : p.rooms = browseRooms s (some hotel.id) := h.2 hmode hloading herror hotel hhotel
  refine HotelsPage.filteredRooms_perm.trans (((List.Perm.map _ ?_).filter _))
  rw [hrooms]
  exact List.perm_insertionSort _ _

end

/-! ### Two hotels -/

def grandAndPlaza : Store :=
  { sampleStore with
    hotels := sampleStore.hotels.insert
      ⟨0, "Plaza", none, none, none, none, none, none, none, none, none, 0, 0⟩
    rooms := sampleStore.rooms.insert ⟨0, 2, 1, none, some 2, some 80, none, true⟩ }

/-- The second hotel is opened by the URL after the first was left. -/
def looksAround : List HotelsEvent :=
  [.listAnswered 0 id, .listAnswered 0 id, .enter 0, .roomsAnswered 0, .toggleCap .two,
    .order .priceAsc, .back, .visit (some (some 2)), .roomsFails 0, .retryRooms, .roomsAnswered 0]

theorem hotels_page_shows_rooms_in_turn_sample :
    Always (HotelsPage.step sampleIlike grandAndPlaza)
      (fun p => p.mode = .rooms → p.roomsLoading = false → p.roomsError = false →
        ∀ h ∈ p.selectedHotel, (p.filteredRooms grandAndPlaza).Perm
          ((hotelCards grandAndPlaza h).filter p.filters.admits))
      (.opened none) looksAround :=
  hotels_page_shows_rooms_in_turn none looksAround (by decide +kernel)

/-- The answer about the first hotel comes when the second is shown. -/
example :
    let p := run (HotelsPage.step sampleIlike grandAndPlaza) (.opened none)
      [.listAnswered 0 id, .enter 0, .back, .enter 1, .roomsAnswered 0]
    p.selectedHotel.map Hotel.id = some 2 ∧ p.roomsLoading = false ∧
      p.rooms.map Room.hotelId = [1] := by
  decide +kernel

end HotelMs
