import HotelMs.Api
import HotelMs.Lib.Paging
import HotelMs.Lib.PyText

/-!
# Hotel pages (`api/v1/public/search.py`)

`browse_hotels` orders by the rating alone, `search_hotels_endpoint` by nothing.
What a query leaves open the database decides anew for every page.
-/

namespace HotelMs

open Tables Paging PyText

/-! ### The endpoints -/

/-- `Query(20, ge=1, le=100)`. -/
structure PerPage where
  perPage : ℕ
  ge : 1 ≤ perPage
  le : perPage ≤ 100

structure BrowseFilters where
  country : Option String
  city : Option String
  minRating : Option ℚ

structure SearchQuery where
  q : String
  city : Option String
  country : Option String
  minStars : Option ℕ
  maxStars : Option ℕ

/-- `Hotel` has no `star_rating`: a 500. -/
inductive SearchError
  | attributeError
  deriving DecidableEq

section

-- `ILIKE` of a text and a pattern
variable (ilike : String → String → Bool)

def holdsPart (column : Option String) (part : String) : Bool :=
  column.any fun text => ilike text ("%" ++ part ++ "%")

def BrowseFilters.admits (f : BrowseFilters) (h : Hotel) : Bool :=
  (given f.country).all (holdsPart ilike h.country) &&
    (given f.city).all (holdsPart ilike h.city) &&
    f.minRating.all fun rating => rating ≤ h.rating

/-- `order` is how the database answers `ORDER BY rating DESC` this time. -/
def browseHotels (order : List Hotel → List Hotel) (s : Store) (f : BrowseFilters)
    (size : PerPage) (page : ℕ) : List Hotel :=
  slice ((page - 1) * size.perPage) size.perPage (order (s.hotels.select (f.admits ilike)))

-- all hits of the index for a text and a city, the best first; none when it cannot be reached
variable (index : String → Option String → List ℤ)

def searchHotels (q : String) (city : Option String) : List ℤ := (index q (given city)).take 20

def mentions (h : Hotel) (part : String) : Bool :=
  [some h.name, h.city, h.country, h.description].any fun column => holdsPart ilike column part

/-- `[p.strip() for p in q.split(",") if p.strip()]`. -/
def searchParts (q : String) : List String :=
  ((q.toList.splitOn ',').map fun p => String.ofList (stripChars p)).filter (· ≠ "")

def fallback (q : String) (h : Hotel) : Bool :=
  let parts := searchParts q
  if 1 < parts.length then parts.all (mentions ilike h) else mentions ilike h q

/-- The hotels that these hits, or without any the text, and the filters leave. -/
def SearchQuery.admits (query : SearchQuery) (hits : List ℤ) (h : Hotel) : Bool :=
  (if hits = [] then fallback ilike query.q h else decide (h.id ∈ hits)) &&
    (given query.city).all (holdsPart ilike h.city) &&
    (given query.country).all (holdsPart ilike h.country)

/-- `order` is how the database answers a query without `ORDER BY` this time. -/
def searchHotelsEndpoint (order : List Hotel → List Hotel) (s : Store) (query : SearchQuery)
    (size : PerPage) (page : ℕ) : Except SearchError (List Hotel) :=
  let hits := searchHotels index query.q query.city
  if query.minStars.isSome || query.maxStars.isSome then .error .attributeError
  else .ok (slice ((page - 1) * size.perPage) size.perPage
    (order (s.hotels.select (query.admits ilike hits))))

end

/-! ### The paging laws -/

section

variable (ilike : String → String → Bool) (index : String → Option String → List ℤ) (s : Store)
  (size : PerPage)

/-- Pages 1, 2, … of a browse hold every matching hotel once, however the
database answers each query. -/
def BrowsePaged (f : BrowseFilters) : Prop :=
  ∀ orders : ℕ → List Hotel → List Hotel, (∀ k, Arranges Hotel.rating (orders k)) →
    ∀ n, (s.hotels.select (f.admits ilike)).length ≤ n * size.perPage →
      ((List.range n).flatMap fun k => browseHotels ilike (orders k) s f size (k + 1)).Perm
        (s.hotels.select (f.admits ilike))

/-- The hotels of a search, whatever the number of hits. -/
def searchedHotels (query : SearchQuery) : List Hotel :=
  s.hotels.select (query.admits ilike (index query.q (given query.city)))

/-- The key of a query without `ORDER BY`. -/
def unordered (_ : Hotel) : ℚ := 0

/-- Pages 1, 2, … of a search are all answered and hold every matching hotel once. -/
def SearchPaged (query : SearchQuery) : Prop :=
  ∀ orders : ℕ → List Hotel → List Hotel, (∀ k, Arranges unordered (orders k)) →
    ∃ pages : ℕ → List Hotel,
      (∀ k, searchHotelsEndpoint ilike index (orders k) s query size (k + 1) = .ok (pages k)) ∧
      ∀ n, (searchedHotels ilike index s query).length ≤ n * size.perPage →
        ((List.range n).flatMap pages).Perm (searchedHotels ilike index s query)

variable {ilike index s size}

/-- Answers to one query are answers of a database. -/
theorem exists_orders {key : Hotel → ℚ} {rows : List Hotel} {picks : ℕ → List Hotel}
    (h : ∀ k, Arrangement key rows (picks k)) :
    ∃ orders : ℕ → List Hotel → List Hotel, (∀ k, Arranges key (orders k)) ∧
      ∀ k, orders k rows = picks k :=
  ⟨fun k => Function.update (sortDescending key) rows (picks k),
    fun k => (h k).arranges_update (arranges_sortDescending key),
    fun _ => Function.update_self _ _ _⟩

theorem nodup_select (p : Hotel → Bool) : (s.hotels.select p).Nodup :=
  (List.Nodup.of_map _ s.hotels.distinct).filter p

/-- A law about every order the database may choose is one about every
arrangement of the rows of the query. -/
theorem forall_orders_iff (key : Hotel → ℚ) (rows : List Hotel) (hrows : rows.Nodup)
    (size : PerPage) :
    (∀ orders : ℕ → List Hotel → List Hotel, (∀ k, Arranges key (orders k)) →
      ∀ n, rows.length ≤ n * size.perPage →
        (pagesOf size.perPage (fun k => orders k rows) n).Perm rows) ↔
    ∀ k, ¬Splits key rows (k * size.perPage) := by
  rw [← pagesOf_perm_iff hrows size.ge (arranges_sortDescending key rows)]
  constructor
  · intro h picks hpicks
    obtain ⟨orders, horders, hsame⟩ := exists_orders hpicks
    have hpages := h orders horders
    simp only [hsame] at hpages
    exact hpages
  · intro h orders horders
    exact h (fun k => orders k rows) fun k => horders k rows

theorem browse_paged_iff (f : BrowseFilters) :
    BrowsePaged ilike s size f ↔
      ∀ k, ¬Splits Hotel.rating (s.hotels.select (f.admits ilike)) (k * size.perPage) :=
  forall_orders_iff _ _ (nodup_select _) size

variable {query : SearchQuery}

theorem searchHotelsEndpoint_eq_ok {order : List Hotel → List Hotel} {page : ℕ}
    {hotels : List Hotel} :
    searchHotelsEndpoint ilike index order s query size page = .ok hotels ↔
      (query.minStars = none ∧ query.maxStars = none) ∧
      slice ((page - 1) * size.perPage) size.perPage
        (order (s.hotels.select (query.admits ilike (searchHotels index query.q query.city)))) =
          hotels := by
  unfold searchHotelsEndpoint
  cases query.minStars <;> cases query.maxStars <;> simp

theorem admits_take (hits : List ℤ) (h : Hotel) :
    query.admits ilike (hits.take 20) h =
      (query.admits ilike hits h && decide (h.id ∈ hits → h.id ∈ hits.take 20)) := by
  cases hits with
  | nil => simp [SearchQuery.admits]
  | cons hit rest =>
    have hne : (hit :: rest).take 20 ≠ [] := by simp
    have hmem : h.id ∈ (hit :: rest).take 20 → h.id ∈ hit :: rest := List.mem_of_mem_take
    unfold SearchQuery.admits
    rw [if_neg hne, if_neg (List.cons_ne_nil hit rest)]
    generalize (hit :: rest).take 20 = front at hmem ⊢
    by_cases hfront : h.id ∈ front
    · simp [hfront, hmem hfront]
    · by_cases hany : h.id ∈ hit :: rest
      · simp only [hfront, hany, true_imp_iff, decide_false, Bool.false_and, Bool.and_false]
      · simp only [hfront, hany, decide_false, Bool.false_and]

theorem select_searchHotels :
    s.hotels.select (query.admits ilike (searchHotels index query.q query.city)) =
      (searchedHotels ilike index s query).filter fun h =>
        decide (h.id ∈ index query.q (given query.city) →
          h.id ∈ searchHotels index query.q query.city) := by
  unfold searchedHotels Table.select
  rw [List.filter_filter]
  refine List.filter_congr fun h _ => ?_
  rw [searchHotels, admits_take, Bool.and_comm]

/-- No hotel of the search is a hit behind the first twenty. -/
def HitsReach (ilike : String → String → Bool) (index : String → Option String → List ℤ)
    (s : Store) (query : SearchQuery) : Prop :=
  ∀ h ∈ searchedHotels ilike index s query, h.id ∈ index query.q (given query.city) →
    h.id ∈ searchHotels index query.q query.city

theorem select_searchHotels_of_reach (h : HitsReach ilike index s query) :
    s.hotels.select (query.admits ilike (searchHotels index query.q query.city)) =
      searchedHotels ilike index s query := by
  rw [select_searchHotels]
  exact List.filter_eq_self.mpr fun x hx => decide_eq_true (h x hx)

theorem reach_of_searchPaged (h : SearchPaged ilike index s size query) :
    (query.minStars = none ∧ query.maxStars = none) ∧ HitsReach ilike index s query := by
  have hsort := arranges_sortDescending unordered
  obtain ⟨pages, hpages, hall⟩ := h (fun _ => sortDescending unordered) fun _ => hsort
  have hstars := (searchHotelsEndpoint_eq_ok.mp (hpages 0)).1
  refine ⟨hstars, ?_⟩
  have hreach : (searchedHotels ilike index s query).length ≤
      (searchedHotels ilike index s query).length * size.perPage :=
    Nat.le_mul_of_pos_right _ size.ge
  have hperm := hall _ hreach
  have hslices : pages = fun k => slice (k * size.perPage) size.perPage
      (sortDescending unordered
        (s.hotels.select (query.admits ilike (searchHotels index query.q query.city)))) := by
    funext k
    exact (searchHotelsEndpoint_eq_ok.mp (hpages k)).2.symm
  rw [hslices, pages_eq_take] at hperm
  have hlen := hperm.length_eq
  have hsorted := (hsort
    (s.hotels.select (query.admits ilike (searchHotels index query.q query.city)))).1.length_eq
  rw [List.length_take, hsorted, select_searchHotels] at hlen
  have hall : ((searchedHotels ilike index s query).filter fun h =>
      decide (h.id ∈ index query.q (given query.city) →
        h.id ∈ searchHotels index query.q query.city)).length =
      (searchedHotels ilike index s query).length := by
    refine le_antisymm (List.length_filter_le _ _) ?_
    rw [← hlen]
    exact min_le_right _ _
  exact fun x hx => of_decide_eq_true (List.length_filter_eq_length_iff.mp hall x hx)

theorem search_paged_iff :
    SearchPaged ilike index s size query ↔
      (query.minStars = none ∧ query.maxStars = none) ∧ HitsReach ilike index s query ∧
        (searchedHotels ilike index s query).length ≤ size.perPage := by
  have hlaw := forall_orders_iff unordered (searchedHotels ilike index s query)
    (nodup_select _) size
  have hsize : ¬size.perPage = 0 := Nat.ne_of_gt size.ge
  have hconst : (∀ k, ¬Splits unordered (searchedHotels ilike index s query)
      (k * size.perPage)) ↔ (searchedHotels ilike index s query).length ≤ size.perPage := by
    exact (not_splits_const_iff (0 : ℚ)).trans (or_iff_left hsize)
  constructor
  · intro h
    obtain ⟨hstars, hreach⟩ := reach_of_searchPaged h
    refine ⟨hstars, hreach, hconst.mp (hlaw.mp fun orders horders n hn => ?_)⟩
    obtain ⟨pages, hpages, hall⟩ := h orders horders
    have hperm := hall n hn
    have hslices : pages = fun k => slice (k * size.perPage) size.perPage
        (orders k (searchedHotels ilike index s query)) := by
      funext k
      have hpage := (searchHotelsEndpoint_eq_ok.mp (hpages k)).2
      rw [select_searchHotels_of_reach hreach] at hpage
      exact hpage.symm
    rwa [hslices] at hperm
  · intro h orders horders
    obtain ⟨hstars, hreach, hfits⟩ := h
    refine ⟨fun k => slice (k * size.perPage) size.perPage
      (orders k (searchedHotels ilike index s query)), fun k => ?_, ?_⟩
    · refine searchHotelsEndpoint_eq_ok.mpr ⟨hstars, ?_⟩
      rw [select_searchHotels_of_reach hreach]
      rfl
    · exact hlaw.mpr (hconst.mpr hfits) orders horders

end

theorem hotels_paged_iff (ilike : String → String → Bool)
    (index : String → Option String → List ℤ) (s : Store) (size : PerPage) (f : BrowseFilters)
    (query : SearchQuery) :
    (BrowsePaged ilike s size f ↔
      ∀ k, ¬Splits Hotel.rating (s.hotels.select (f.admits ilike)) (k * size.perPage)) ∧
    (SearchPaged ilike index s size query ↔
      (query.minStars = none ∧ query.maxStars = none) ∧ HitsReach ilike index s query ∧
        (searchedHotels ilike index s query).length ≤ size.perPage) :=
  ⟨browse_paged_iff f, search_paged_iff⟩

/-! ### Hotels that are missed -/

/-- `ILIKE` of texts and patterns in one case. -/
def sampleIlike (text pattern : String) : Bool :=
  decide (pattern.toList.filter (· ≠ '%') <:+: text.toList)

def grandHotels (n : ℕ) : Store :=
  { Store.empty with
    hotels := (List.range n).foldl (fun hotels _ => hotels.insert
      ⟨0, "Grand", none, none, none, none, none, none, none, none, none, 0, 0⟩) Table.empty }

def hotelPages (perPage : ℕ) (h : 1 ≤ perPage ∧ perPage ≤ 100) : PerPage := ⟨perPage, h.1, h.2⟩

/-- Two unrated hotels on pages of one, and a search with twenty-one hits. -/
theorem hotels_missed :
    ¬BrowsePaged sampleIlike (grandHotels 2) (hotelPages 1 (by decide)) ⟨none, none, none⟩ ∧
    ¬SearchPaged sampleIlike (fun _ _ => []) (grandHotels 2) (hotelPages 1 (by decide))
      ⟨"Grand", none, none, none, none⟩ ∧
    ¬SearchPaged sampleIlike (fun _ _ => (List.range 21).map fun i => (i : ℤ) + 1)
      (grandHotels 21) (hotelPages 100 (by decide)) ⟨"Grand", none, none, none, none⟩ := by
  refine ⟨fun h => ?_, fun h => ?_, fun h => ?_⟩
  · exact (browse_paged_iff _).mp h 1 ⟨0, by decide +kernel, by decide +kernel⟩
  · have hfits := (search_paged_iff.mp h).2.2
    revert hfits
    decide +kernel
  · have hreach := (search_paged_iff.mp h).2.1
    revert hreach
    unfold HitsReach
    decide +kernel

end HotelMs
