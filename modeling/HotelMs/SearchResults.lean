import HotelMs.Checkout
import HotelMs.HotelPaging
import HotelMs.Lib.Runs

/-!
# The list of results (`pages/public/SearchResults.jsx`)

A page of results is asked for when the location of the URL changes and put in
the place of the list; "Load more" asks for the next one and appends it. Answers
and failures come at any time and in any order. The tables do not change
meanwhile; what a query leaves open is decided anew for every request.
-/

namespace HotelMs

open Tables Paging Runs

inductive SortOption
  | recommended
  | ratingDesc
  | nameAsc
  deriving DecidableEq

structure SearchRequest where
  location : String
  pg : ℕ
  append : Bool
  deriving DecidableEq

structure ResultsPage where
  initLocation : String
  hotels : List Hotel
  loading : Bool
  error : Option String
  page : ℕ
  hasMore : Bool
  minRating : ℚ
  sort : SortOption
  requests : List SearchRequest

/-- What a request finds: how the database orders the answer this time, and all the
hits of the index. -/
structure SearchAnswer where
  browseOrder : List Hotel → List Hotel
  searchOrder : List Hotel → List Hotel
  hits : List ℤ
  browse_arranges : Arranges Hotel.rating browseOrder
  search_arranges : Arranges unordered searchOrder

inductive ResultsEvent
  | navigate (location : String)
  | more
  | retry
  | rate (minRating : ℚ)
  | order (sort : SortOption)
  | answered (n : ℕ) (answer : SearchAnswer)
  | fails (n : ℕ)

/-- `!location.trim()` -/
def isBlank (location : String) : Bool := location.toList.all jsSpace

def twentyPerPage : PerPage := ⟨20, by decide, by decide⟩

/-- The query of `/hotels` with `q` alone. -/
def locationQuery (location : String) : SearchQuery := ⟨location, none, none, none, none⟩

def browseAll : BrowseFilters := ⟨none, none, none⟩

section

variable (ilike : String → String → Bool) (s : Store)

/-- The data of an answer: `/hotels/browse` without a location, else `/hotels`. -/
def resultsData (answer : SearchAnswer) (location : String) (pg : ℕ) :
    Except SearchError (List Hotel) :=
  if isBlank location then .ok (browseHotels ilike answer.browseOrder s browseAll twentyPerPage pg)
  else searchHotelsEndpoint ilike (fun _ _ => answer.hits) answer.searchOrder s
    (locationQuery location) twentyPerPage pg

-- `a.name.localeCompare(b.name) <= 0`
variable (nameLe : String → String → Bool)

namespace ResultsPage

variable (p : ResultsPage)

def displayed : List Hotel :=
  let shown := p.hotels.filter fun h => p.minRating ≤ h.rating
  match p.sort with
  | .recommended => shown
  | .ratingDesc => shown.mergeSort fun a b => decide (b.rating ≤ a.rating)
  | .nameAsc => shown.mergeSort fun a b => nameLe a.name b.name

def fetchHotels (location : String) (pg : ℕ) (append : Bool) : ResultsPage :=
  { p with loading := true, error := none, requests := p.requests ++ [⟨location, pg, append⟩] }

def start (location : String) : ResultsPage :=
  fetchHotels ⟨location, [], false, none, 1, false, 0, .recommended, []⟩ location 1 false

def failed : ResultsPage :=
  { p with error := some "Failed to load results. Please try again.", loading := false }

def received (r : SearchRequest) (data : List Hotel) : ResultsPage :=
  { p with
    hotels := if r.append then p.hotels ++ data else data
    hasMore := data.length == 20
    page := r.pg
    loading := false }

/-- The button is there below a list with hotels, and disabled while it loads. -/
def step : ResultsEvent → ResultsPage
  | .navigate location =>
    if location = p.initLocation then p
    else fetchHotels { p with initLocation := location } location 1 false
  | .more =>
    if p.displayed nameLe ≠ [] ∧ p.hasMore = true ∧ p.loading = false then
      p.fetchHotels p.initLocation (p.page + 1) true
    else p
  | .retry => if p.error.isSome then p.fetchHotels p.initLocation 1 false else p
  | .rate minRating => { p with minRating }
  | .order sort => { p with sort }
  | .answered n answer =>
    match p.requests[n]? with
    | some r =>
      let q := { p with requests := p.requests.eraseIdx n }
      match resultsData ilike s answer r.location r.pg with
      | .ok data => q.received r data
      | .error _ => q.failed
    | none => p
  | .fails n =>
    match p.requests[n]? with
    | some _ => { p with requests := p.requests.eraseIdx n }.failed
    | none => p

end ResultsPage

/-! ### What the list is to hold -/

-- the hits of the index for a location, the same at every request
variable (index : String → Option String → List ℤ)

/-- The hotels of a location, whatever the number of hits. -/
def matchingHotels (location : String) : List Hotel :=
  if isBlank location then s.hotels.select (browseAll.admits ilike)
  else searchedHotels ilike index s (locationQuery location)

/-- The rows that the endpoint pages. -/
def queriedHotels (location : String) : List Hotel :=
  if isBlank location then s.hotels.select (browseAll.admits ilike)
  else s.hotels.select ((locationQuery location).admits ilike (searchHotels index location none))

def resultsKey (location : String) : Hotel → ℚ :=
  if isBlank location then Hotel.rating else unordered

/-- No page of a browse ends between hotels of one rating, and a search has one page
and no match behind the hits that are looked at. -/
def PagesAgree (location : String) : Prop :=
  if isBlank location then
    ∀ k, ¬Splits Hotel.rating (matchingHotels ilike s index location) (k * 20)
  else HitsReach ilike index s (locationQuery location) ∧
    (matchingHotels ilike s index location).length ≤ 20

/-- The list is the front of an answer to the whole query, each hotel in it once, and
all of the matches when there is no more to load. -/
structure ResultsPage.ShowsMatches (p : ResultsPage) : Prop where
  front : ∃ l, Arrangement (resultsKey p.initLocation)
    (matchingHotels ilike s index p.initLocation) l ∧ p.hotels <+: l
  once : p.hotels.Nodup
  all : p.hasMore = false → p.hotels.Perm (matchingHotels ilike s index p.initLocation)

/-- A location is changed, or asked for again, only when nothing is under way, no
more is asked for below a message that the last request failed, and the index does not
change. -/
def SearchesInTurn (p : ResultsPage) : ResultsEvent → Prop
  | .navigate location => location = p.initLocation ∨ p.requests = []
  | .more => p.error = none
  | .retry => p.requests = []
  | .answered n answer =>
    ∀ r ∈ p.requests[n]?, isBlank r.location = true ∨ answer.hits = index r.location none
  | _ => True

instance (p : ResultsPage) (e : ResultsEvent) : Decidable (SearchesInTurn index p e) :=
  match e with
  | .navigate _ => inferInstanceAs (Decidable (_ ∨ _))
  | .more => inferInstanceAs (Decidable (_ = _))
  | .retry => inferInstanceAs (Decidable (_ = _))
  | .answered n _ => inferInstanceAs (Decidable (∀ r ∈ p.requests[n]?, _ ∨ _))
  | .rate _ | .order _ | .fails _ => isTrue trivial

/-! ### Pages put together -/

/-- The list is made of the first pages, each of an answer to its own request. -/
structure ResultsPage.Grown (p : ResultsPage) : Prop where
  hotels : ∃ picks, (∀ i, Arrangement (resultsKey p.initLocation)
    (queriedHotels ilike s index p.initLocation) (picks i)) ∧ p.hotels = pagesOf 20 picks p.page
  hasMore : p.hasMore = true ↔ p.page * 20 ≤ (queriedHotels ilike s index p.initLocation).length

/-- Where a page is between two events: at rest, with a first page on its way, or
with the next one. -/
inductive ResultsPage.Phase (p : ResultsPage) : Prop
  | settled (hrequests : p.requests = []) (hloading : p.loading = false)
    (hgrown : p.error = none → p.Grown ilike s index)
  | searching (hrequests : p.requests = [⟨p.initLocation, 1, false⟩]) (hloading : p.loading = true)
    (herror : p.error = none)
  | growing (hrequests : p.requests = [⟨p.initLocation, p.page + 1, true⟩])
    (hloading : p.loading = true) (herror : p.error = none) (hgrown : p.Grown ilike s index)

end

section

variable {ilike : String → String → Bool} {s : Store} {index : String → Option String → List ℤ}
  {nameLe : String → String → Bool} {p : ResultsPage} {picks : ℕ → List Hotel} {l : List Hotel}

theorem length_page_eq_iff
    (hlength : l.length = (queriedHotels ilike s index p.initLocation).length)
    (k : ℕ) : ((slice (k * 20) 20 l).length == 20) = true ↔
      (k + 1) * 20 ≤ (queriedHotels ilike s index p.initLocation).length := by
  rw [beq_iff_eq, length_slice, hlength]
  omega

theorem grown_first (h : Arrangement (resultsKey p.initLocation)
    (queriedHotels ilike s index p.initLocation) l) :
    (p.received ⟨p.initLocation, 1, false⟩ (slice 0 20 l)).Grown ilike s index := by
  constructor
  · refine ⟨fun _ => l, fun _ => h, ?_⟩
    have hpage := pagesOf_succ 20 (fun _ => l) 0
    rw [Nat.zero_mul] at hpage
    exact hpage.symm
  · have hlast := length_page_eq_iff (p := p) h.1.length_eq 0
    rw [Nat.zero_mul] at hlast
    exact hlast

theorem ResultsPage.Grown.next (hgrown : p.Grown ilike s index)
    (h : Arrangement (resultsKey p.initLocation) (queriedHotels ilike s index p.initLocation) l) :
    (p.received ⟨p.initLocation, p.page + 1, true⟩ (slice (p.page * 20) 20 l)).Grown
      ilike s index := by
  obtain ⟨⟨picks, hpicks, hhotels⟩, -⟩ := hgrown
  constructor
  · refine ⟨Function.update picks p.page l, fun i => ?_, ?_⟩
    · rw [Function.update_apply]
      split
      · exact h
      · exact hpicks i
    · show p.hotels ++ _ = _
      rw [hhotels]
      exact (pagesOf_update 20 picks p.page l).symm
  · exact length_page_eq_iff h.1.length_eq p.page

variable (ilike s) in
/-- The page of an answer is cut out of an arrangement of the rows. -/
theorem resultsData_eq (answer : SearchAnswer) (location : String)
    (hhits : isBlank location = true ∨ answer.hits = index location none) (pg : ℕ) :
    ∃ l, Arrangement (resultsKey location) (queriedHotels ilike s index location) l ∧
      resultsData ilike s answer location pg = .ok (slice ((pg - 1) * 20) 20 l) := by
  unfold resultsData resultsKey queriedHotels
  split
  · exact ⟨_, answer.browse_arranges _, rfl⟩
  next hblank =>
    have hindex := hhits.resolve_left hblank
    refine ⟨_, answer.search_arranges _, ?_⟩
    have hsame : searchHotels (fun _ _ => answer.hits) location none =
        searchHotels index location none := by
      unfold searchHotels
      rw [hindex]
      rfl
    rw [← hsame]
    rfl

theorem phase_search (p : ResultsPage) (hrequests : p.requests = []) :
    (p.fetchHotels p.initLocation 1 false).Phase ilike s index := by
  refine .searching ?_ rfl rfl
  simp only [ResultsPage.fetchHotels, hrequests, List.nil_append]

theorem phase_answered (h : p.Phase ilike s index) (n : ℕ) (answer : SearchAnswer)
    (hturn : SearchesInTurn index p (.answered n answer)) :
    (p.step ilike s nameLe (.answered n answer)).Phase ilike s index := by
  cases h with
  | settled hrequests hloading hgrown =>
    simp only [ResultsPage.step, hrequests, List.getElem?_nil]
    exact .settled hrequests hloading hgrown
  | searching hrequests hloading herror =>
    cases n with
    | zero =>
      obtain ⟨l, hl, hdata⟩ := resultsData_eq ilike s answer p.initLocation
        (hturn _ (by rw [hrequests]; rfl)) 1
      rw [Nat.sub_self, Nat.zero_mul] at hdata
      simp only [ResultsPage.step, hrequests, List.getElem?_cons_zero, List.eraseIdx_cons_zero,
        hdata]
      exact .settled rfl rfl fun _ => grown_first (p := { p with requests := [] }) hl
    | succ n =>
      simp only [ResultsPage.step, hrequests, List.getElem?_cons_succ, List.getElem?_nil]
      exact .searching hrequests hloading herror
  | growing hrequests hloading herror hgrown =>
    cases n with
    | zero =>
      obtain ⟨l, hl, hdata⟩ := resultsData_eq ilike s answer p.initLocation
        (hturn _ (by rw [hrequests]; rfl)) (p.page + 1)
      rw [Nat.add_sub_cancel] at hdata
      simp only [ResultsPage.step, hrequests, List.getElem?_cons_zero, List.eraseIdx_cons_zero,
        hdata]
      have hold : ResultsPage.Grown ilike s index { p with requests := [] } :=
        ⟨hgrown.hotels, hgrown.hasMore⟩
      exact .settled rfl rfl fun _ => hold.next hl
    | succ n =>
      simp only [ResultsPage.step, hrequests, List.getElem?_cons_succ, List.getElem?_nil]
      exact .growing hrequests hloading herror hgrown

theorem phase_fails (h : p.Phase ilike s index) (n : ℕ) :
    (p.step ilike s nameLe (.fails n)).Phase ilike s index := by
  have hone : p.requests = [] ∨ ∃ r, p.requests = [r] := by
    cases h with
    | settled hrequests hloading hgrown => exact Or.inl hrequests
    | searching hrequests hloading herror => exact Or.inr ⟨_, hrequests⟩
    | growing hrequests hloading herror hgrown => exact Or.inr ⟨_, hrequests⟩
  simp only [ResultsPage.step]
  rcases hone with hnone | ⟨r, hr⟩
  · simp only [hnone, List.getElem?_nil]
    exact h
  · cases n with
    | zero =>
      simp only [hr, List.getElem?_cons_zero, List.eraseIdx_cons_zero]
      exact .settled rfl rfl fun h => nomatch h
    | succ n =>
      simp only [hr, List.getElem?_cons_succ, List.getElem?_nil]
      exact h

theorem phase_view (h : p.Phase ilike s index) (minRating : ℚ) (sort : SortOption) :
    ResultsPage.Phase ilike s index { p with minRating, sort } := by
  cases h with
  | settled hrequests hloading hgrown =>
    exact .settled hrequests hloading fun herror =>
      ⟨(hgrown herror).hotels, (hgrown herror).hasMore⟩
  | searching hrequests hloading herror => exact .searching hrequests hloading herror
  | growing hrequests hloading herror hgrown =>
    exact .growing hrequests hloading herror ⟨hgrown.hotels, hgrown.hasMore⟩

theorem phase_step (h : p.Phase ilike s index) (e : ResultsEvent)
    (hturn : SearchesInTurn index p e) :
    (p.step ilike s nameLe e).Phase ilike s index := by
  cases e with
  | navigate location =>
    simp only [ResultsPage.step]
    split
    · exact h
    next hne =>
      have hquiet : p.requests = [] := hturn.resolve_left hne
      exact phase_search { p with initLocation := location } hquiet
  | more =>
    simp only [ResultsPage.step]
    split
    next hbutton =>
      cases h with
      | settled hrequests hloading hgrown =>
        have hold := hgrown hturn
        refine .growing ?_ rfl rfl ⟨hold.hotels, hold.hasMore⟩
        simp only [ResultsPage.fetchHotels, hrequests, List.nil_append]
      | searching hrequests hloading herror =>
        rw [hbutton.2.2] at hloading
        cases hloading
      | growing hrequests hloading herror hgrown =>
        rw [hbutton.2.2] at hloading
        cases hloading
    · exact h
  | retry =>
    simp only [ResultsPage.step]
    split
    · exact phase_search p hturn
    · exact h
  | rate minRating => exact phase_view h minRating p.sort
  | order sort => exact phase_view h p.minRating sort
  | answered n answer => exact phase_answered h n answer hturn
  | fails n => exact phase_fails h n

/-! ### Lists that are right -/

theorem nodup_matchingHotels (location : String) :
    (matchingHotels ilike s index location).Nodup := by
  unfold matchingHotels
  split
  · exact nodup_select _
  · exact nodup_select _

theorem queriedHotels_of_agree {location : String} (h : PagesAgree ilike s index location) :
    queriedHotels ilike s index location = matchingHotels ilike s index location := by
  unfold PagesAgree at h
  unfold queriedHotels matchingHotels
  split
  · rfl
  next hblank =>
    rw [if_neg hblank] at h
    exact select_searchHotels_of_reach h.1

theorem not_splits_of_agree {location : String} (h : PagesAgree ilike s index location) (k : ℕ) :
    ¬Splits (resultsKey location) (matchingHotels ilike s index location) (k * 20) := by
  unfold PagesAgree at h
  unfold resultsKey
  split
  next hblank =>
    rw [if_pos hblank] at h
    exact h k
  next hblank =>
    rw [if_neg hblank] at h
    exact (not_splits_const_iff (0 : ℚ)).mpr (Or.inl h.2) k

theorem ResultsPage.Grown.showsMatches (hgrown : p.Grown ilike s index)
    (hagree : PagesAgree ilike s index p.initLocation) : p.ShowsMatches ilike s index := by
  obtain ⟨⟨picks, hpicks, hhotels⟩, hmore⟩ := hgrown
  have hsplit := not_splits_of_agree hagree
  rw [queriedHotels_of_agree hagree] at hpicks hmore
  have hwhole := arrangement_pagesOf hsplit hpicks p.page (hpicks 0)
  refine ⟨⟨_, hwhole, hhotels ▸ List.prefix_append _ _⟩, ?_, fun hend => ?_⟩
  · rw [hhotels]
    exact (hwhole.1.nodup_iff.mpr (nodup_matchingHotels _)).sublist (List.sublist_append_left _ _)
  · have hlt : ¬p.page * 20 ≤ (matchingHotels ilike s index p.initLocation).length := by
      intro hle
      rw [hmore.mpr hle] at hend
      cases hend
    have hnone : (picks 0).drop (p.page * 20) = [] :=
      List.drop_eq_nil_of_le (by rw [(hpicks 0).1.length_eq]; omega)
    rw [hnone, List.append_nil] at hwhole
    exact hhotels ▸ hwhole.1

/-- At rest without a message, however the answers and failures came. -/
theorem results_list_each_match_once (location : String) (es : List ResultsEvent)
    (hturn : Along (ResultsPage.step ilike s nameLe) (SearchesInTurn index) (.start location) es) :
    Always (ResultsPage.step ilike s nameLe)
      (fun p => p.loading = false → p.error = none → PagesAgree ilike s index p.initLocation →
        p.ShowsMatches ilike s index) (.start location) es := by
  have hstart : (ResultsPage.start location).Phase ilike s index := phase_search _ rfl
  have hphases : Always (ResultsPage.step ilike s nameLe) (ResultsPage.Phase ilike s index)
      (.start location) es := always_of_along (fun p e h he => phase_step h e he) hstart hturn
  refine hphases.mono ?_
  intro p hphase hidle herror hagree
  cases hphase with
  | settled hrequests hloading hgrown => exact (hgrown herror).showsMatches hagree
  | searching hrequests hloading _ =>
    rw [hidle] at hloading
    cases hloading
  | growing hrequests hloading _ hgrown =>
    rw [hidle] at hloading
    cases hloading

end

/-- A database that sorts, and an index without a hit. -/
def sortedAnswer : SearchAnswer where
  browseOrder := sortDescending Hotel.rating
  searchOrder := sortDescending unordered
  hits := []
  browse_arranges := arranges_sortDescending Hotel.rating
  search_arranges := arranges_sortDescending unordered

/-- Twenty hotels, loaded to the end, again after a failure, and a search. -/
def loadsMore : List ResultsEvent :=
  [.answered 0 sortedAnswer, .more, .answered 0 sortedAnswer, .more, .rate 0, .navigate "Grand",
    .fails 0, .retry, .answered 0 sortedAnswer, .more, .answered 0 sortedAnswer]

def loadedPage : ResultsPage :=
  run (ResultsPage.step sampleIlike (grandHotels 20) (· ≤ ·)) (.start "") loadsMore

theorem results_list_each_match_once_sample :
    loadedPage.ShowsMatches sampleIlike (grandHotels 20) fun _ _ => [] := by
  have hturn : Along (ResultsPage.step sampleIlike (grandHotels 20) (· ≤ ·))
      (SearchesInTurn fun _ _ => []) (.start "") loadsMore := by decide +kernel
  have hshows := Always.last (results_list_each_match_once "" loadsMore hturn)
  have hlocation : loadedPage.initLocation = "Grand" := by decide +kernel
  refine hshows (by decide +kernel) (by decide +kernel) ?_
  show PagesAgree _ _ _ loadedPage.initLocation
  rw [hlocation]
  refine (if_neg (by decide +kernel)).mpr ⟨fun _ _ hhit => absurd hhit List.not_mem_nil, ?_⟩
  decide +kernel

end HotelMs
