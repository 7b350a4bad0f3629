import HotelMs.ActivityLogs
import HotelMs.BookingCalendar
import HotelMs.DeskScope
import HotelMs.Lib.Edits

/-!
# The board of bookings (`pages/admin/bookings/AllBookings.jsx`)

The page asks for the bookings of a tab whenever the tab changes, and once for all
bookings to count those of each tab. A change of status that the server has accepted is
made in the rows and in the counts of the page, without asking again.
-/

namespace HotelMs

open Edits Runs Tables

/-! ### The page -/

inductive BoardTab
  | all
  | of (status : BookingStatus)
  deriving DecidableEq

/-- The `status` parameter of `getAllBookings`. -/
def BoardTab.query : BoardTab → Option String
  | .all => none
  | .of status => some status.toString

def BoardTab.admits (b : BookingRow) : BoardTab → Bool
  | .all => true
  | .of status => b.status = status

/-- What is not counted yet is `none`. -/
abbrev TabCounts := BoardTab → Option ℕ

def countTabs (all : List BookingRow) : TabCounts
  | .all => some all.length
  | .of status => some (all.countP fun b => b.status = status)

/-- A change of status that was sent, with the status that the page had of the booking. -/
structure StatusChange where
  id : ℤ
  status : BookingStatus
  oldStatus : Option BookingStatus
  deriving DecidableEq

def StatusChange.counted (c : StatusChange) (prev : TabCounts) : TabCounts :=
  let updated : TabCounts := match c.oldStatus with
    | some old =>
      if 0 < (prev (.of old)).getD 0 then
        Function.update prev (.of old) (some ((prev (.of old)).getD 0 - 1))
      else prev
    | none => prev
  Function.update updated (.of c.status) (some ((updated (.of c.status)).getD 0 + 1))

structure BookingBoard where
  lockedTab : Option BoardTab
  tab : BoardTab
  bookings : List BookingRow
  loading : Bool
  updating : Option ℤ
  confirmCancel : Option (ℤ × BookingStatus)
  tabCounts : TabCounts
  search : String
  dateFrom : List Char
  dateTo : List Char

namespace BookingBoard

def opened (lockedTab : Option BoardTab) : BookingBoard where
  lockedTab := lockedTab
  tab := lockedTab.getD .all
  bookings := []
  loading := true
  updating := none
  confirmCancel := none
  tabCounts := fun _ => none
  search := ""
  dateFrom := []
  dateTo := []

section

variable (lower : String → String) (p : BookingBoard)

def filtered : List BookingRow :=
  let q := lower p.search
  p.bookings.filter fun b =>
    (q = "" || b.guestName.any (fun name => containsText (lower name) q) ||
      b.guestEmail.any fun email => containsText (lower email) q) &&
    (p.dateFrom = [] || b.checkIn ≠ [] && p.dateFrom ≤ b.checkIn) &&
    (p.dateTo = [] || b.checkIn ≠ [] && b.checkIn ≤ p.dateTo)

def summaryConfirmed : ℕ := (p.filtered lower).countP fun b => b.status = .confirmed

def summaryPending : ℕ := (p.filtered lower).countP fun b => b.status = .pending

/-- `bookings.find(…)?.status` -/
def statusOf (id : ℤ) : Option BookingStatus :=
  (p.bookings.find? fun b => b.id = id).map BookingRow.status

/-- The row is shown and its controls are not disabled. -/
def offers (id : ℤ) : Bool :=
  !p.loading && (p.filtered lower).any (fun b => b.id = id) && p.updating ≠ some id

end

/-- The request of `doStatusChange` is answered. -/
def changeDone (p : BookingBoard) (c : StatusChange) : BookingBoard :=
  { p with
    bookings := p.bookings.map fun b => if b.id = c.id then { b with status := c.status } else b
    tabCounts := c.counted p.tabCounts, updating := none, confirmCancel := none }

def changeFailed (p : BookingBoard) : BookingBoard :=
  { p with updating := none, confirmCancel := none }

end BookingBoard

/-! ### The page and the server -/

inductive BoardLoad
  | counts
  | list (tab : BoardTab)
  deriving DecidableEq

def BoardLoad.tab : BoardLoad → BoardTab
  | .counts => .all
  | .list tab => tab

abbrev Rows := Except Error (List BookingRow)

/-- A request is first sent, then known to the server, then answered. -/
structure BoardSite where
  page : BookingBoard
  store : Store
  loads : List BoardLoad
  loaded : List (BoardLoad × Rows)
  changes : List StatusChange
  changed : List (StatusChange × Except Error Unit)

def getAllBookings (s : Store) (token : Bearer) (status : Option String) : Rows :=
  (listAllBookings s token status).map (List.map BookingAdminResponse.json)

inductive BoardEvent
  | choose (tab : BoardTab)
  | pick (id : ℤ) (status : BookingStatus)
  | confirm
  | keep
  | find (search : String)
  | checkInFrom (date : List Char)
  | checkInTo (date : List Char)
  | clear
  | loadServed (n : ℕ)
  | loadAnswered (n : ℕ)
  | loadLost (n : ℕ)
  | changeServed (n : ℕ)
  | changeAnswered (n : ℕ)
  | changeLost (n : ℕ)
  | answerLost (n : ℕ)
  | elsewhere (store : Store)

namespace BookingBoard

/-- The effects run, also under a locked tab. -/
def loadDone (p : BookingBoard) : BoardLoad → Rows → BookingBoard
  | .counts, .ok all => { p with tabCounts := countTabs all }
  | .counts, .error _ => p
  | .list _, .ok rows => { p with bookings := rows, loading := false }
  | .list _, .error _ => { p with bookings := [], loading := false }

/-- The request an event sends to change a status. A cancellation is confirmed first. -/
def sends (lower : String → String) (p : BookingBoard) : BoardEvent → Option StatusChange
  | .pick id status =>
    if p.offers lower id ∧ p.statusOf id ≠ some status ∧ status ≠ .cancelled then
      some ⟨id, status, p.statusOf id⟩
    else none
  | .confirm =>
    match p.confirmCancel with
    | some (id, status) => if p.offers lower id then some ⟨id, status, p.statusOf id⟩ else none
    | none => none
  | _ => none

/-- What an event changes on the page at once. -/
def handled (lower : String → String) (p : BookingBoard) : BoardEvent → BookingBoard
  | .choose tab =>
    if p.lockedTab = none ∧ tab ≠ p.tab then { p with tab, loading := true } else p
  | .pick id status =>
    if p.offers lower id ∧ p.statusOf id ≠ some status then
      if status = .cancelled then { p with confirmCancel := some (id, status) }
      else { p with updating := some id }
    else p
  | .confirm =>
    match p.confirmCancel with
    | some (id, _) => if p.offers lower id then { p with updating := some id } else p
    | none => p
  | .keep => { p with confirmCancel := none }
  | .find search => { p with search }
  | .checkInFrom dateFrom => { p with dateFrom }
  | .checkInTo dateTo => { p with dateTo }
  | .clear => { p with search := "", dateFrom := [], dateTo := [] }
  | _ => p

end BookingBoard

namespace BoardSite

section

variable (lower : String → String) (token : Bearer) (w : BoardSite)

/-- Both effects of the first render send their request. -/
def opened (lockedTab : Option BoardTab) (s : Store) : BoardSite where
  page := .opened lockedTab
  store := s
  loads := [.counts, .list (lockedTab.getD .all)]
  loaded := []
  changes := []
  changed := []

def step (w : BoardSite) : BoardEvent → BoardSite
  | .choose tab =>
    let page := w.page.handled lower (.choose tab)
    if page.tab = w.page.tab then w else { w with page, loads := w.loads ++ [.list tab] }
  | .loadServed n =>
    match w.loads[n]? with
    | some load =>
      { w with
        loads := w.loads.eraseIdx n
        loaded := w.loaded ++ [(load, getAllBookings w.store token load.tab.query)] }
    | none => w
  | .loadAnswered n =>
    match w.loaded[n]? with
    | some (load, rows) =>
      { w with loaded := w.loaded.eraseIdx n, page := w.page.loadDone load rows }
    | none => w
  | .loadLost n =>
    match w.loads[n]? with
    | some load =>
      { w with loads := w.loads.eraseIdx n, page := w.page.loadDone load (.error .data) }
    | none => w
  | .changeServed n =>
    match w.changes[n]? with
    | some c =>
      let r := updateBooking w.store token c.id c.status.toString
      { w with
        changes := w.changes.eraseIdx n, store := committed w.store r
        changed := w.changed ++ [(c, r.map fun _ => ())] }
    | none => w
  | .changeAnswered n =>
    match w.changed[n]? with
    | some (c, .ok _) =>
      { w with changed := w.changed.eraseIdx n, page := w.page.changeDone c }
    | some (_, .error _) =>
      { w with changed := w.changed.eraseIdx n, page := w.page.changeFailed }
    | none => w
  | .changeLost n =>
    match w.changes[n]? with
    | some _ => { w with changes := w.changes.eraseIdx n, page := w.page.changeFailed }
    | none => w
  | .answerLost n =>
    match w.changed[n]? with
    | some _ => { w with changed := w.changed.eraseIdx n, page := w.page.changeFailed }
    | none => w
  | .elsewhere store => { w with store }
  | e =>
    { w with
      page := w.page.handled lower e, changes := w.changes ++ (w.page.sends lower e).toList }

def underway : List StatusChange := w.changes ++ w.changed.map Prod.fst

/-- Nothing is under way. -/
def Quiet : Prop := w.loads = [] ∧ w.loaded = [] ∧ w.changes = [] ∧ w.changed = []

instance : Decidable w.Quiet := inferInstanceAs (Decidable (_ ∧ _))

end

end BoardSite

/-! ### What the server does -/

def bookingRows : Editable BookingRow ℤ BookingStatus where
  key := BookingRow.id
  set := fun status b => { b with status }
  key_set := fun _ _ => rfl

section

variable {s : Store} {token : Bearer} {user : User} {rows : List BookingRow}

theorem getAllBookings_eq_ok {status : Option String} :
    getAllBookings s token status = .ok rows ↔ ∃ user, getCurrentUser s token = .ok user ∧
      requireStaffOrAdmin user = .ok () ∧
      rows = ((s.bookings.select fun b => (getOptionalHotel user).all (fun h => b.hotelId = h) &&
        b.hasStatus status).insertionSort fun a b => b.createdAt ≤ a.createdAt).map
          fun b => (b.adminResponse s).json := by
  unfold getAllBookings listAllBookings
  cases huser : getCurrentUser s token with
  | error e => simp [bind, Except.bind, Except.map]
  | ok user =>
    cases hstaff : requireStaffOrAdmin user with
    | error e => simp [bind, Except.bind, Except.map, hstaff]
    | ok _ =>
      simp only [bind, Except.bind, Except.map, pure, Except.pure, hstaff, List.map_map]
      constructor
      · intro h
        exact ⟨user, rfl, hstaff, (Except.ok.inj h).symm⟩
      · rintro ⟨user', huser', _, rfl⟩
        obtain rfl := Except.ok.inj huser'
        rfl

theorem hasStatus_query (s : Store) (t : BoardTab) (b : Booking) :
    b.hasStatus t.query = t.admits (b.adminResponse s).json := by
  cases t with
  | all => rfl
  | of status =>
    show (decide (status.toString = "") || decide (b.status.toString = status.toString)) =
      decide (b.status = status)
    generalize b.status = old
    cases old <;> cases status <;> decide

/-- The list of a tab is that part of the whole list. -/
theorem getAllBookings_tab (h : getAllBookings s token none = .ok rows) (t : BoardTab) :
    getAllBookings s token t.query = .ok (rows.filter t.admits) := by
  obtain ⟨user, huser, hstaff, rfl⟩ := getAllBookings_eq_ok.mp h
  refine getAllBookings_eq_ok.mpr ⟨user, huser, hstaff, ?_⟩
  rw [List.filter_map, filter_insertionSort]
  congr 2
  unfold Table.select
  rw [List.filter_filter]
  refine List.filter_congr fun b _ => ?_
  have hall : b.hasStatus none = true := rfl
  simp only [Function.comp_apply, hasStatus_query s, hall, Bool.and_true]
  exact Bool.and_comm _ _

theorem nodup_getAllBookings (h : getAllBookings s token none = .ok rows) :
    (rows.map BookingRow.id).Nodup := by
  obtain ⟨user, _, _, rfl⟩ := getAllBookings_eq_ok.mp h
  rw [List.map_map]
  refine ((List.perm_insertionSort _ _).map _).nodup_iff.mpr ?_
  exact s.bookings.distinct.sublist (List.filter_sublist.map _)

theorem getAllBookings_setStatus (h : getAllBookings s token none = .ok rows) (id : ℤ)
    (status : BookingStatus) :
    getAllBookings (setStatus s id status) token none =
      .ok (edit bookingRows rows (id, status)) := by
  obtain ⟨user, huser, hstaff, rfl⟩ := getAllBookings_eq_ok.mp h
  refine getAllBookings_eq_ok.mpr ⟨user, huser, hstaff, ?_⟩
  have hrows : (setStatus s id status).bookings.rows =
      s.bookings.rows.map fun b => if b.id = id then { b with status } else b := by
    refine List.map_congr_left fun b _ => ?_
    by_cases hb : b.id = id
    · exact (if_pos (decide_eq_true hb)).trans (if_pos hb).symm
    · exact (if_neg (by simpa using hb)).trans (if_neg hb).symm
  have hhotel : ∀ b : Booking,
      (if b.id = id then { b with status } else b).hotelId = b.hotelId := by
    intro b
    split <;> rfl
  have hcreated : ∀ b : Booking,
      (if b.id = id then { b with status } else b).createdAt = b.createdAt := by
    intro b
    split <;> rfl
  unfold Table.select
  rw [hrows, List.filter_map]
  simp only [Function.comp_def, hhotel]
  rw [← List.map_insertionSort _ _ _ _ fun a _ b _ => by rw [hcreated, hcreated], edit,
    List.map_map, List.map_map]
  refine List.map_congr_left fun b _ => ?_
  simp only [Function.comp_apply]
  by_cases hb : b.id = id
  · rw [if_pos hb]
    exact if_pos hb
  · rw [if_neg hb]
    exact if_neg hb

theorem updateBooking_listed (h : getAllBookings s token none = .ok rows) {id : ℤ}
    (hid : id ∈ rows.map BookingRow.id) (status : BookingStatus) :
    ∃ b, updateBooking s token id status.toString = .ok (b, setStatus s id status) := by
  obtain ⟨user, huser, hstaff, rfl⟩ := getAllBookings_eq_ok.mp h
  rw [List.map_map] at hid
  obtain ⟨b, hb, rfl⟩ := List.mem_map.mp hid
  have hrow := (Table.mem_select _).mp ((List.mem_insertionSort _).mp hb)
  have hget : s.bookings.get b.id = some b := (Table.get_eq_some _).mpr ⟨hrow.1, rfl⟩
  have hname : BookingStatus.ofString? status.toString = some status := by
    cases status <;> rfl
  exact ⟨_, updateBooking_eq_ok.mpr ⟨user, status, b, huser, hstaff, hname, hget, rfl⟩⟩

end

/-! ### The counts and the rows -/

def StatusChange.edit (c : StatusChange) : ℤ × BookingStatus := (c.id, c.status)

/-- The change is about a booking of these, as they have it. -/
def StatusChange.About (c : StatusChange) (known : List BookingRow) : Prop :=
  ∃ b ∈ known, b.id = c.id ∧ c.oldStatus = some b.status

section

variable {known : List BookingRow} {c : StatusChange}

theorem counted_eq {prev : TabCounts} {old : BookingStatus} {n : ℕ}
    (hold : c.oldStatus = some old) (hn : prev (.of old) = some n) (hpos : 0 < n) :
    c.counted prev =
      Function.update (Function.update prev (.of old) (some (n - 1))) (.of c.status)
        (some ((Function.update prev (.of old) (some (n - 1)) (.of c.status)).getD 0 + 1)) := by
  have hcounted : 0 < (prev (.of old)).getD 0 := by rwa [hn]
  unfold StatusChange.counted
  simp only [hold]
  rw [if_pos hcounted, hn]
  rfl

theorem counted_countTabs (hdistinct : (known.map BookingRow.id).Nodup) (hold : c.About known) :
    c.counted (countTabs known) = countTabs (edit bookingRows known c.edit) := by
  obtain ⟨b, hb, hid, hold⟩ := hold
  have hmoved : ∀ status : BookingStatus,
      (edit bookingRows known c.edit).countP (fun b => b.status = status) +
          (if b.status = status then 1 else 0) =
        known.countP (fun b => b.status = status) + if c.status = status then 1 else 0 := by
    intro status
    have hcount := countP_edit (I := bookingRows) (e := c.edit) (fun b => b.status = status)
      hdistinct hb hid
    simp only [decide_eq_true_eq] at hcount
    exact hcount
  have hpos : 0 < known.countP fun x => x.status = b.status :=
    List.countP_pos_iff.mpr ⟨b, hb, decide_eq_true rfl⟩
  rw [counted_eq hold rfl hpos]
  funext t
  cases t with
  | all =>
    rw [Function.update_of_ne BoardTab.noConfusion, Function.update_of_ne BoardTab.noConfusion]
    exact congrArg some (List.length_map _).symm
  | of status =>
    have hstatus := hmoved status
    have htab : ∀ {x y : BookingStatus}, x ≠ y → BoardTab.of x ≠ .of y := fun hxy h =>
      hxy (BoardTab.of.inj h)
    by_cases hnew : c.status = status
    · subst hnew
      rw [Function.update_self]
      rw [if_pos rfl] at hstatus
      by_cases hleft : b.status = c.status
      · rw [if_pos hleft] at hstatus
        rw [← hleft] at hstatus ⊢
        rw [Function.update_self]
        exact congrArg some (by dsimp only [Option.getD_some]; omega)
      · rw [if_neg hleft] at hstatus
        rw [Function.update_of_ne (htab (Ne.symm hleft))]
        exact congrArg some hstatus.symm
    · rw [Function.update_of_ne (htab (Ne.symm hnew))]
      rw [if_neg hnew] at hstatus
      by_cases hleft : b.status = status
      · subst hleft
        rw [if_pos rfl] at hstatus
        rw [Function.update_self]
        exact congrArg some (by omega)
      · rw [if_neg hleft] at hstatus
        rw [Function.update_of_ne (htab (Ne.symm hleft))]
        exact congrArg some hstatus.symm

/-- The rows of the page: of the known ones at least those of the tab. -/
structure ShowsRows (known : List BookingRow) (p : BookingBoard) : Prop where
  loading : p.loading = false
  rows : p.bookings.Sublist known
  admitted : ∀ b ∈ known, p.tab.admits b = true → b ∈ p.bookings

theorem changeDone_shows {p : BookingBoard} (hdistinct : (known.map BookingRow.id).Nodup)
    (h : ShowsRows known p) (hshown : ∃ b ∈ p.bookings, b.id = c.id) :
    ShowsRows (edit bookingRows known c.edit) (p.changeDone c) := by
  refine ⟨h.loading, edit_sublist (I := bookingRows) (e := c.edit) h.rows, fun b hb hadmitted => ?_⟩
  obtain ⟨old, hold, rfl⟩ := List.mem_map.mp hb
  refine List.mem_map.mpr ⟨old, ?_, rfl⟩
  by_cases hid : old.id = c.id
  · obtain ⟨own, hown, hsame⟩ := hshown
    have hone := List.inj_on_of_nodup_map hdistinct hold (h.rows.subset hown) (hid.trans hsame.symm)
    rwa [hone]
  · have hkept : (if bookingRows.key old = c.edit.1 then bookingRows.set c.edit.2 old else old) =
        old := if_neg hid
    rw [hkept] at hadmitted
    exact h.admitted old hold hadmitted

theorem offers_row {lower : String → String} {p : BookingBoard} {id : ℤ}
    (h : p.offers lower id = true) :
    p.loading = false ∧ ∃ b ∈ p.bookings, b.id = id ∧ p.statusOf id = some b.status := by
  simp only [BookingBoard.offers, Bool.and_eq_true, Bool.not_eq_true', List.any_eq_true] at h
  obtain ⟨⟨hloading, b, hb, hid⟩, _⟩ := h
  refine ⟨hloading, ?_⟩
  cases hfound : p.bookings.find? fun b => b.id = id with
  | none => exact absurd hid (List.find?_eq_none.mp hfound b (List.mem_of_mem_filter hb))
  | some own =>
    refine ⟨own, List.mem_of_find?_eq_some hfound, ?_, ?_⟩
    · simpa using List.find?_some hfound
    · rw [BookingBoard.statusOf, hfound, Option.map_some]

theorem sends_about {lower : String → String} {p : BookingBoard} {e : BoardEvent}
    (h : p.sends lower e = some c) : p.loading = false ∧ c.About p.bookings := by
  unfold BookingBoard.sends at h
  split at h
  next id status =>
    split at h
    next hoffer =>
      obtain rfl := Option.some.inj h
      obtain ⟨hloading, b, hb, hid, hold⟩ := offers_row hoffer.1
      exact ⟨hloading, b, hb, hid, hold⟩
    next => cases h
  next =>
    split at h
    next id status _ =>
      split at h
      next hoffer =>
        obtain rfl := Option.some.inj h
        obtain ⟨hloading, b, hb, hid, hold⟩ := offers_row hoffer
        exact ⟨hloading, b, hb, hid, hold⟩
      next => cases h
    next => cases h
  next => cases h

/-- Only answers and tabs change what these are. -/
theorem handled_keeps (lower : String → String) (p : BookingBoard) {e : BoardEvent}
    (h : ∀ tab, e ≠ .choose tab) :
    (p.handled lower e).tab = p.tab ∧ (p.handled lower e).bookings = p.bookings ∧
      (p.handled lower e).loading = p.loading ∧
      (p.handled lower e).tabCounts = p.tabCounts := by
  cases e with
  | choose tab => exact absurd rfl (h tab)
  | pick id status =>
    rw [BookingBoard.handled]
    split
    · split <;> exact ⟨rfl, rfl, rfl, rfl⟩
    · exact ⟨rfl, rfl, rfl, rfl⟩
  | confirm =>
    rw [BookingBoard.handled]
    split
    · split <;> exact ⟨rfl, rfl, rfl, rfl⟩
    · exact ⟨rfl, rfl, rfl, rfl⟩
  | _ => exact ⟨rfl, rfl, rfl, rfl⟩

end

/-! ### Every step -/

namespace BoardSite

def asked (w : BoardSite) : List BoardLoad := w.loads ++ w.loaded.map Prod.fst

/-- A tab is chosen when nothing is under way, a status is changed when no list is and
no other change of the booking; no list and no answer to a change gets lost, and what
the desk lists does not change elsewhere. -/
def InTurn (lower : String → String) (token : Bearer) (w : BoardSite) : BoardEvent → Prop
  | .choose _ => w.asked = [] ∧ w.underway = []
  | .loadLost n => w.loads[n]? = none
  | .answerLost n => w.changed[n]? = none
  | .elsewhere store =>
    getAllBookings store token none = getAllBookings w.store token none
  | e => ∀ c ∈ w.page.sends lower e, w.asked = [] ∧ ∀ c' ∈ w.underway, c'.id ≠ c.id

instance (lower : String → String) (token : Bearer) (w : BoardSite) :
    ∀ e, Decidable (InTurn lower token w e)
  | .choose _ => inferInstanceAs (Decidable (_ ∧ _))
  | .loadLost n => inferInstanceAs (Decidable (w.loads[n]? = none))
  | .answerLost n => inferInstanceAs (Decidable (w.changed[n]? = none))
  | .elsewhere _ => inferInstanceAs (Decidable (_ = getAllBookings w.store token none))
  | .pick id status => inferInstanceAs (Decidable (∀ c ∈ w.page.sends lower (.pick id status), _))
  | .confirm => inferInstanceAs (Decidable (∀ c ∈ w.page.sends lower .confirm, _))
  | .keep | .find _ | .checkInFrom _ | .checkInTo _ | .clear | .loadServed _ | .loadAnswered _
  | .changeServed _ | .changeAnswered _ | .changeLost _ =>
    isTrue fun c h => absurd h (Option.not_mem_none c)

/-- What the page knows of the bookings, while requests are under way. -/
structure Knows (token : Bearer) (known : List BookingRow) (w : BoardSite) : Prop where
  server : ∃ rows, getAllBookings w.store token none = .ok rows ∧
    Underway bookingRows known rows (w.changes.map StatusChange.edit)
      (w.changed.map fun c => c.1.edit)
  accepted : ∀ c ∈ w.changed, c.2 = .ok ()
  about : ∀ c ∈ w.underway, c.About known
  onPage : ∀ c ∈ w.underway, ∃ b ∈ w.page.bookings, b.id = c.id
  apart : w.asked = [] ∨ w.underway = []
  tabs : ∀ load ∈ w.asked, load = .counts ∨ load = .list w.page.tab
  answers : ∀ a ∈ w.loaded, a.2 = .ok (known.filter a.1.tab.admits)
  counted : .counts ∉ w.asked → w.page.tabCounts = countTabs known
  shown : .list w.page.tab ∉ w.asked → ShowsRows known w.page

section

variable {lower : String → String} {token : Bearer} {w : BoardSite} {known : List BookingRow}

theorem Knows.distinct (h : Knows token known w) : (known.map BookingRow.id).Nodup := by
  obtain ⟨rows, hrows, hunder⟩ := h.server
  have hkeys : rows.map BookingRow.id = known.map BookingRow.id := by
    rw [hunder.current_eq]
    exact map_key_edits (I := bookingRows) _
  rw [← hkeys]
  exact nodup_getAllBookings hrows

theorem Knows.quiet (h : Knows token known w) (hquiet : w.underway = []) :
    getAllBookings w.store token none = .ok known := by
  obtain ⟨rows, hrows, hunder⟩ := h.server
  have hchanged : w.changed = [] := List.map_eq_nil_iff.mp (List.append_eq_nil_iff.mp hquiet).2
  rw [hchanged] at hunder
  rw [hrows, hunder.quiet]

theorem knows_opened {s : Store} (hlist : getAllBookings s token none = .ok known)
    (lockedTab : Option BoardTab) : Knows token known (opened lockedTab s) where
  server := ⟨known, hlist, .refl⟩
  accepted := fun _ h => absurd h List.not_mem_nil
  about := fun _ h => absurd h List.not_mem_nil
  onPage := fun _ h => absurd h List.not_mem_nil
  apart := Or.inr rfl
  tabs := by
    intro load hload
    rcases List.mem_cons.mp hload with rfl | hload
    · exact Or.inl rfl
    · exact Or.inr (List.mem_singleton.mp hload)
  answers := fun _ h => absurd h List.not_mem_nil
  counted := fun h => absurd List.mem_cons_self h
  shown := fun h => absurd (List.mem_cons_of_mem _ (List.mem_singleton_self _)) h

/-! #### Lists -/

theorem knows_choose (h : Knows token known w) (tab : BoardTab)
    (hturn : InTurn lower token w (.choose tab)) :
    Knows token known (w.step lower token (.choose tab)) := by
  obtain ⟨hasked, hunder⟩ := hturn
  rw [step]
  split
  next => exact h
  next hmoved =>
    rw [BookingBoard.handled] at hmoved ⊢
    split at hmoved
    next hnew =>
      rw [if_pos hnew]
      have hloads := (List.append_eq_nil_iff.mp hasked).1
      have hloaded := (List.append_eq_nil_iff.mp hasked).2
      have hlist : asked { w with
          page := { w.page with tab, loading := true }, loads := w.loads ++ [.list tab] } =
          [.list tab] := by
        rw [asked, hloads, hloaded]
        rfl
      exact {
        server := h.server
        accepted := h.accepted
        about := h.about
        onPage := h.onPage
        apart := Or.inr hunder
        tabs := fun load hload => Or.inr (by
          rw [hlist] at hload
          exact List.mem_singleton.mp hload)
        answers := h.answers
        counted := fun _ => h.counted (by rw [hasked]; exact List.not_mem_nil)
        shown := fun hnone => absurd (by rw [hlist]; exact List.mem_singleton_self _) hnone }
    next => exact absurd rfl hmoved

theorem knows_loadServed (h : Knows token known w) (n : ℕ) :
    Knows token known (w.step lower token (.loadServed n)) := by
  rw [step]
  split
  next load hload =>
    have hunder : w.underway = [] := h.apart.resolve_left fun hnone => by
      rw [(List.append_eq_nil_iff.mp hnone).1] at hload
      cases hload
    have hperm : (asked { w with
        loads := w.loads.eraseIdx n
        loaded := w.loaded ++ [(load, getAllBookings w.store token load.tab.query)] }).Perm
        w.asked := by
      show (w.loads.eraseIdx n ++ (w.loaded ++ [_]).map Prod.fst).Perm _
      rw [List.map_append, ← List.append_assoc]
      refine (List.perm_append_singleton load _).trans ?_
      exact (cons_eraseIdx_perm hload).append_right _
    have hanswer := getAllBookings_tab (h.quiet hunder) load.tab
    exact {
      server := h.server
      accepted := h.accepted
      about := h.about
      onPage := h.onPage
      apart := Or.inr hunder
      tabs := fun load' hload' => h.tabs load' (hperm.mem_iff.mp hload')
      answers := by
        intro a ha
        rcases List.mem_append.mp ha with ha | ha
        · exact h.answers a ha
        · rw [List.mem_singleton.mp ha]
          exact hanswer
      counted := fun hnone => h.counted fun hmem => hnone (hperm.mem_iff.mpr hmem)
      shown := fun hnone => h.shown fun hmem => hnone (hperm.mem_iff.mpr hmem) }
  next => exact h

theorem knows_loadAnswered (h : Knows token known w) (n : ℕ) :
    Knows token known (w.step lower token (.loadAnswered n)) := by
  rw [step]
  split
  next load rows hload =>
    have hmem : (load, rows) ∈ w.loaded := List.mem_of_getElem? hload
    have hasked : load ∈ w.asked := List.mem_append_right _ (List.mem_map_of_mem hmem)
    have hunder : w.underway = [] := h.apart.resolve_left fun hnone => by
      rw [hnone] at hasked
      exact List.not_mem_nil hasked
    have hleft : ∀ load', load' ≠ load → load' ∈ w.asked →
        load' ∈ w.loads ++ (w.loaded.eraseIdx n).map Prod.fst := by
      intro load' hne hload'
      rcases List.mem_append.mp hload' with hload' | hload'
      · exact List.mem_append_left _ hload'
      · obtain ⟨a, ha, rfl⟩ := List.mem_map.mp hload'
        refine List.mem_append_right _ (List.mem_map_of_mem ?_)
        have hrest := (cons_eraseIdx_perm hload).mem_iff.mpr ha
        exact (List.mem_cons.mp hrest).resolve_left fun heq => hne (congrArg Prod.fst heq)
    have hstill : ∀ load' ∈ w.loads ++ (w.loaded.eraseIdx n).map Prod.fst, load' ∈ w.asked := by
      intro load' hload'
      refine (List.Sublist.append_left ?_ _).subset hload'
      exact (List.eraseIdx_sublist _ _).map _
    obtain rfl : rows = .ok (known.filter load.tab.admits) := h.answers _ hmem
    have hchanges : w.changes = [] := (List.append_eq_nil_iff.mp hunder).1
    cases load with
    | counts =>
      have hall : known.filter BoardLoad.counts.tab.admits = known :=
        List.filter_eq_self.mpr fun _ _ => rfl
      exact {
        server := h.server
        accepted := h.accepted
        about := h.about
        onPage := h.onPage
        apart := Or.inr hunder
        tabs := fun load' hload' => h.tabs load' (hstill load' hload')
        answers := fun a ha => h.answers a (List.mem_of_mem_eraseIdx ha)
        counted := fun _ => congrArg countTabs hall
        shown := fun hnone => by
          have hrows := h.shown fun hlist => hnone (hleft _ BoardLoad.noConfusion hlist)
          exact ⟨hrows.loading, hrows.rows, hrows.admitted⟩ }
    | list tab =>
      obtain rfl : tab = w.page.tab := by
        rcases h.tabs _ hasked with hcounts | hlist
        · cases hcounts
        · exact BoardLoad.list.inj hlist
      exact {
        server := h.server
        accepted := h.accepted
        about := h.about
        onPage := fun c hc => by
          have hnone : c ∈ w.underway := hc
          rw [hunder] at hnone
          exact absurd hnone List.not_mem_nil
        apart := Or.inr hunder
        tabs := fun load' hload' => h.tabs load' (hstill load' hload')
        answers := fun a ha => h.answers a (List.mem_of_mem_eraseIdx ha)
        counted := fun hnone => h.counted fun hcounts =>
          hnone (hleft _ BoardLoad.noConfusion hcounts)
        shown := fun _ => ⟨rfl, List.filter_sublist, fun b hb hadmitted =>
          List.mem_filter.mpr ⟨hb, hadmitted⟩⟩ }
  next => exact h

/-! #### Changes -/

theorem knows_changeServed (h : Knows token known w) (n : ℕ) :
    Knows token known (w.step lower token (.changeServed n)) := by
  rw [step]
  split
  next c hc =>
    obtain ⟨rows, hrows, hunder⟩ := h.server
    have hmem : c ∈ w.underway := List.mem_append_left _ (List.mem_of_getElem? hc)
    have hid : c.id ∈ rows.map BookingRow.id := by
      have hkeys : rows.map BookingRow.id = known.map BookingRow.id := by
        rw [hunder.current_eq]
        exact map_key_edits (I := bookingRows) _
      obtain ⟨b, hb, hid, _⟩ := h.about c hmem
      rw [hkeys, ← hid]
      exact List.mem_map_of_mem hb
    obtain ⟨b, hdone⟩ := updateBooking_listed hrows hid c.status
    have hperm : (w.changes.eraseIdx n ++ (w.changed ++ [(c, (.ok () : Except Error Unit))]).map
        Prod.fst).Perm w.underway := by
      rw [List.map_append, ← List.append_assoc]
      refine (List.perm_append_singleton c _).trans ?_
      exact (cons_eraseIdx_perm hc).append_right _
    have hmade := hunder.make (e := c.edit) (n := n) (by rw [List.getElem?_map, hc]; rfl)
    rw [hdone]
    exact {
      server := by
        refine ⟨_, getAllBookings_setStatus hrows c.id c.status, ?_⟩
        rw [List.map_append, ← List.eraseIdx_map]
        exact hmade
      accepted := by
        intro c' hc'
        rcases List.mem_append.mp hc' with hc' | hc'
        · exact h.accepted c' hc'
        · rw [List.mem_singleton.mp hc']
          rfl
      about := fun c' hc' => h.about c' (hperm.mem_iff.mp hc')
      onPage := fun c' hc' => h.onPage c' (hperm.mem_iff.mp hc')
      apart := Or.inl (h.apart.resolve_right fun hnone => by
        rw [hnone] at hmem
        exact List.not_mem_nil hmem)
      tabs := h.tabs
      answers := h.answers
      counted := h.counted
      shown := h.shown }
  next => exact h

/-- A change that is given up or answered: what is under way after it. -/
theorem underway_sublist {changes : List StatusChange}
    {changed : List (StatusChange × Except Error Unit)} (hsent : changes.Sublist w.changes)
    (hmade : changed.Sublist w.changed) :
    (changes ++ changed.map Prod.fst).Sublist w.underway := hsent.append (hmade.map _)

theorem knows_changeLost (h : Knows token known w) (n : ℕ) :
    Knows token known (w.step lower token (.changeLost n)) := by
  rw [step]
  split
  next c hc =>
    have hsub := underway_sublist (List.eraseIdx_sublist w.changes n) (List.Sublist.refl w.changed)
    obtain ⟨rows, hrows, hunder⟩ := h.server
    exact {
      server := ⟨rows, hrows, by
        rw [← List.eraseIdx_map]
        exact hunder.drop n⟩
      accepted := h.accepted
      about := fun c' hc' => h.about c' (hsub.subset hc')
      onPage := fun c' hc' => h.onPage c' (hsub.subset hc')
      apart := h.apart.imp_right fun hnone => by
        rw [hnone] at hsub
        exact List.sublist_nil.mp hsub
      tabs := h.tabs
      answers := h.answers
      counted := h.counted
      shown := fun hnone => by
        have hrows := h.shown hnone
        exact ⟨hrows.loading, hrows.rows, hrows.admitted⟩ }
  next => exact h

theorem knows_changeAnswered (h : Knows token known w) (n : ℕ) :
    ∃ known', Knows token known' (w.step lower token (.changeAnswered n)) := by
  rw [step]
  split
  next c _ hc =>
    have hmem : c ∈ w.underway :=
      List.mem_append_right _ (List.mem_map_of_mem (List.mem_of_getElem? hc))
    have hasked : w.asked = [] := h.apart.resolve_right fun hnone => by
      rw [hnone] at hmem
      exact List.not_mem_nil hmem
    have hsub := underway_sublist (List.Sublist.refl w.changes) (List.eraseIdx_sublist w.changed n)
    obtain ⟨rows, hrows, hunder⟩ := h.server
    have hapart : ∀ c' ∈ w.changes ++ (w.changed.eraseIdx n).map Prod.fst, c'.id ≠ c.id := by
      have hids : (w.underway.map StatusChange.id).Nodup := by
        have hedits := hunder.apart
        rw [List.map_append, List.map_map, List.map_map] at hedits
        rw [underway, List.map_append, List.map_map]
        exact hedits
      have hperm : (c :: (w.changes ++ (w.changed.eraseIdx n).map Prod.fst)).Perm w.underway := by
        refine List.perm_middle.symm.trans (List.Perm.append_left _ ?_)
        exact (cons_eraseIdx_perm hc).map Prod.fst
      rw [← (hperm.map _).nodup_iff, List.map_cons, List.nodup_cons] at hids
      intro c' hc' hsame
      exact hids.1 (List.mem_map.mpr ⟨c', hc', hsame⟩)
    refine ⟨edit bookingRows known c.edit, {
      server := ⟨rows, hrows, ?_⟩
      accepted := fun c' hc' => h.accepted c' (List.mem_of_mem_eraseIdx hc')
      about := ?_
      onPage := ?_
      apart := Or.inl hasked
      tabs := h.tabs
      answers := fun a ha => ?_
      counted := fun hnone => ?_
      shown := fun hnone => ?_ }⟩
    · rw [← List.eraseIdx_map (f := fun c : StatusChange × Except Error Unit => c.1.edit)]
      exact hunder.answer (by rw [List.getElem?_map, hc]; rfl)
    · intro c' hc'
      obtain ⟨b, hb, hid, hold⟩ := h.about c' (hsub.subset hc')
      refine ⟨b, (mem_edit_of_ne (I := bookingRows) ?_).mpr hb, hid, hold⟩
      exact fun hsame => hapart c' hc' (hid.symm.trans hsame)
    · intro c' hc'
      obtain ⟨b, hb, hid⟩ := h.onPage c' (hsub.subset hc')
      exact ⟨_, List.mem_map_of_mem hb, (key_ite (I := bookingRows) (e := c.edit) b).trans hid⟩
    · have hnone := (List.append_eq_nil_iff.mp hasked).2
      rw [List.map_eq_nil_iff.mp hnone] at ha
      exact absurd ha List.not_mem_nil
    · exact (congrArg c.counted (h.counted hnone)).trans
        (counted_countTabs h.distinct (h.about c hmem))
    · exact changeDone_shows h.distinct (h.shown hnone) (h.onPage c hmem)
  next c e hc =>
    have haccepted := h.accepted _ (List.mem_of_getElem? hc)
    cases haccepted
  next => exact ⟨known, h⟩

theorem knows_handled (h : Knows token known w) {e : BoardEvent} (hother : ∀ tab, e ≠ .choose tab)
    (hturn : ∀ c ∈ w.page.sends lower e, w.asked = [] ∧ ∀ c' ∈ w.underway, c'.id ≠ c.id) :
    Knows token known { w with
      page := w.page.handled lower e, changes := w.changes ++ (w.page.sends lower e).toList } := by
  obtain ⟨htab, hbookings, hloading, hcounts⟩ := handled_keeps lower w.page hother
  have hshows : ShowsRows known w.page → ShowsRows known (w.page.handled lower e) := by
    intro hrows
    refine ⟨hloading.trans hrows.loading, ?_, ?_⟩
    · rw [hbookings]
      exact hrows.rows
    · rw [hbookings, htab]
      exact hrows.admitted
  have htabs : ∀ load ∈ w.asked, load = .counts ∨ load = .list (w.page.handled lower e).tab := by
    rw [htab]
    exact h.tabs
  have hcounted : .counts ∉ w.asked → (w.page.handled lower e).tabCounts = countTabs known := by
    rw [hcounts]
    exact h.counted
  have hshown : .list (w.page.handled lower e).tab ∉ w.asked →
      ShowsRows known (w.page.handled lower e) := by
    rw [htab]
    exact fun hnone => hshows (h.shown hnone)
  obtain ⟨rows, hrows, hunder⟩ := h.server
  cases hsent : w.page.sends lower e with
  | none =>
    rw [Option.toList_none, List.append_nil]
    exact {
      server := ⟨rows, hrows, hunder⟩
      accepted := h.accepted
      about := h.about
      onPage := by
        rw [hbookings]
        exact h.onPage
      apart := h.apart
      tabs := htabs
      answers := h.answers
      counted := hcounted
      shown := hshown }
  | some c =>
    obtain ⟨hasked, hfresh⟩ := hturn c hsent
    obtain ⟨_, b, hb, hid, hold⟩ := sends_about hsent
    have hnow := h.shown (by rw [hasked]; exact List.not_mem_nil)
    have hperm : (w.changes ++ [c] ++ w.changed.map Prod.fst).Perm (c :: w.underway) := by
      rw [List.append_assoc, List.singleton_append]
      exact List.perm_middle
    exact {
      server := by
        refine ⟨rows, hrows, ?_⟩
        rw [Option.toList_some, List.map_append]
        refine hunder.send (e := c.edit) fun e' he' => ?_
        rw [← Function.comp_def, ← List.map_map, ← List.map_append] at he'
        obtain ⟨c', hc', rfl⟩ := List.mem_map.mp he'
        exact hfresh c' hc'
      accepted := h.accepted
      about := fun c' hc' => (List.mem_cons.mp (hperm.mem_iff.mp hc')).elim
        (fun heq => by rw [heq]; exact ⟨b, hnow.rows.subset hb, hid, hold⟩) (h.about c')
      onPage := by
        rw [hbookings]
        exact fun c' hc' => (List.mem_cons.mp (hperm.mem_iff.mp hc')).elim
          (fun heq => by rw [heq]; exact ⟨b, hb, hid⟩) (h.onPage c')
      apart := Or.inl hasked
      tabs := htabs
      answers := h.answers
      counted := hcounted
      shown := hshown }

theorem knows_step (h : Knows token known w) (e : BoardEvent) (hturn : InTurn lower token w e) :
    ∃ known', Knows token known' (w.step lower token e) := by
  cases e with
  | choose tab => exact ⟨known, knows_choose h tab hturn⟩
  | loadServed n => exact ⟨known, knows_loadServed h n⟩
  | loadAnswered n => exact ⟨known, knows_loadAnswered h n⟩
  | loadLost n =>
    have hnone : w.loads[n]? = none := hturn
    rw [step, hnone]
    exact ⟨known, h⟩
  | changeServed n => exact ⟨known, knows_changeServed h n⟩
  | changeAnswered n => exact knows_changeAnswered h n
  | changeLost n => exact ⟨known, knows_changeLost h n⟩
  | answerLost n =>
    have hnone : w.changed[n]? = none := hturn
    rw [step, hnone]
    exact ⟨known, h⟩
  | elsewhere store =>
    have hsame : getAllBookings store token none = getAllBookings w.store token none := hturn
    obtain ⟨rows, hrows, hunder⟩ := h.server
    exact ⟨known, {
      server := ⟨rows, hsame.trans hrows, hunder⟩
      accepted := h.accepted
      about := h.about
      onPage := h.onPage
      apart := h.apart
      tabs := h.tabs
      answers := h.answers
      counted := h.counted
      shown := h.shown }⟩
  | pick id status => exact ⟨known, knows_handled h (fun _ => BoardEvent.noConfusion) hturn⟩
  | confirm => exact ⟨known, knows_handled h (fun _ => BoardEvent.noConfusion) hturn⟩
  | keep => exact ⟨known, knows_handled h (fun _ => BoardEvent.noConfusion) hturn⟩
  | find search => exact ⟨known, knows_handled h (fun _ => BoardEvent.noConfusion) hturn⟩
  | checkInFrom date => exact ⟨known, knows_handled h (fun _ => BoardEvent.noConfusion) hturn⟩
  | checkInTo date => exact ⟨known, knows_handled h (fun _ => BoardEvent.noConfusion) hturn⟩
  | clear => exact ⟨known, knows_handled h (fun _ => BoardEvent.noConfusion) hturn⟩

end

end BoardSite

/-! ### Every run -/

/-- The page shows the desk: the counts of all tabs, the rows of its own tab and no row
that is out of date; and the summary of the whole list says what the tabs say. -/
structure BookingBoard.Matches (lower : String → String) (token : Bearer) (s : Store)
    (p : BookingBoard) (rows : List BookingRow) : Prop where
  listed : getAllBookings s token none = .ok rows
  counts : p.tabCounts = countTabs rows
  loading : p.loading = false
  upToDate : p.bookings.Sublist rows
  tab : getAllBookings s token p.tab.query = .ok (p.bookings.filter p.tab.admits)
  summary : p.tab = .all → lower p.search = "" → p.dateFrom = [] → p.dateTo = [] →
    p.tabCounts .all = some (p.filtered lower).length ∧
      p.tabCounts (.of .confirmed) = some (p.summaryConfirmed lower) ∧
      p.tabCounts (.of .pending) = some (p.summaryPending lower)

theorem filtered_of_empty {lower : String → String} {p : BookingBoard}
    (hsearch : lower p.search = "") (hfrom : p.dateFrom = []) (hto : p.dateTo = []) :
    p.filtered lower = p.bookings := by
  refine List.filter_eq_self.mpr fun b _ => ?_
  simp [hsearch, hfrom, hto]

/-- The rows of a tab are those of the whole list, once each. -/
theorem filter_of_shows {known : List BookingRow} {p : BookingBoard} (h : ShowsRows known p)
    (hdistinct : (known.map BookingRow.id).Nodup) :
    p.bookings.filter p.tab.admits = known.filter p.tab.admits := by
  have hsub : (p.bookings.filter p.tab.admits).Sublist (known.filter p.tab.admits) :=
    h.rows.filter _
  refine hsub.eq_of_length_le ?_
  have hnodup : (known.filter p.tab.admits).Nodup := (List.Nodup.of_map _ hdistinct).filter _
  refine (hnodup.subperm fun b hb => ?_).length_le
  obtain ⟨hb, hadmitted⟩ := List.mem_filter.mp hb
  exact List.mem_filter.mpr ⟨h.admitted b hb hadmitted, hadmitted⟩

/-- However the requests of different bookings overlap: once nothing is under way, the
page shows the desk. -/
theorem board_matches_desk (lower : String → String) (token : Bearer)
    (lockedTab : Option BoardTab) (s : Store) (rows : List BookingRow)
    (hlist : getAllBookings s token none = .ok rows) (es : List BoardEvent)
    (hturn : Along (BoardSite.step lower token) (BoardSite.InTurn lower token)
      (.opened lockedTab s) es) :
    Always (BoardSite.step lower token)
      (fun w => w.Quiet → ∃ now, w.page.Matches lower token w.store now)
      (.opened lockedTab s) es := by
  have hknown : Always (BoardSite.step lower token)
      (fun w => ∃ known, w.Knows token known) (.opened lockedTab s) es :=
    always_of_along (fun _ e ⟨_, h⟩ hnext => BoardSite.knows_step h e hnext)
      ⟨rows, BoardSite.knows_opened hlist lockedTab⟩ hturn
  refine hknown.mono fun w ⟨known, h⟩ hquiet => ⟨known, ?_⟩
  have hasked : w.asked = [] := by
    rw [BoardSite.asked, hquiet.1, hquiet.2.1]
    rfl
  have hunder : w.underway = [] := by
    rw [BoardSite.underway, hquiet.2.2.1, hquiet.2.2.2]
    rfl
  have hlisted := h.quiet hunder
  have hcounts := h.counted (by rw [hasked]; exact List.not_mem_nil)
  have hshown := h.shown (by rw [hasked]; exact List.not_mem_nil)
  have htab := filter_of_shows hshown h.distinct
  refine ⟨hlisted, hcounts, hshown.loading, hshown.rows, ?_, fun hall hsearch hfrom hto => ?_⟩
  · rw [htab]
    exact getAllBookings_tab hlisted _
  · have hrows : w.page.bookings = known := by
      rw [hall] at htab
      have hevery : ∀ l : List BookingRow, l.filter BoardTab.all.admits = l := fun l =>
        List.filter_eq_self.mpr fun _ _ => rfl
      rwa [hevery, hevery] at htab
    unfold BookingBoard.summaryConfirmed BookingBoard.summaryPending
    rw [filtered_of_empty hsearch hfrom hto, hrows, hcounts]
    exact ⟨rfl, rfl, rfl⟩

/-- One booking is confirmed and the other cancelled, the second of them first; then
those that are pending are asked for. -/
def boardDay : List BoardEvent := [
  .loadServed 0, .loadServed 0, .loadAnswered 1, .loadAnswered 0,
  .pick 1 .confirmed, .pick 2 .cancelled, .confirm,
  .changeServed 1, .changeServed 0, .changeAnswered 1, .changeAnswered 0,
  .choose (.of .pending), .loadServed 0, .loadAnswered 0]

def boardRows : List BookingRow := juneRows.map BookingAdminResponse.json

theorem board_matches_desk_boardDay :
    let w := run (BoardSite.step id (some 3)) (.opened none juneStore) boardDay
    w.page.tabCounts (.of .cancelled) = some 1 ∧
      ∃ now, w.page.Matches id (some 3) w.store now := by
  have hlist : getAllBookings juneStore (some 3) none = .ok boardRows := by decide +kernel
  have hshown := board_matches_desk id (some 3) none juneStore boardRows hlist boardDay
    (by decide +kernel)
  exact ⟨by decide +kernel, hshown.last (by decide +kernel)⟩

end HotelMs
