import HotelMs.Inventory
import HotelMs.Lib.Json
import HotelMs.Lib.PyScalars
import HotelMs.Lib.ReadThrough
import HotelMs.Lib.Runs

/-!
# The hotel cache

`api/v1/admin/hotels.py` reads the list of hotels and a single hotel through
Redis. What is kept is the JSON text of the dumped responses, with decimals and
datetimes as `str` writes them; a hit is validated against the response model
once more. Redis answers; an entry can expire at any time.
-/

namespace HotelMs

open Tables ReadThrough Runs Json PyScalars

/-! ### The response model -/

structure HotelImageResponse where
  id : ℤ
  imageUrl : String
  isPrimary : Bool
  deriving DecidableEq

structure HotelResponse where
  name : String
  description : Option String
  address : Option String
  city : Option String
  country : Option String
  countryCode : Option String
  phone : Option String
  email : Option String
  latitude : Option Decimal
  longitude : Option Decimal
  rating : Decimal
  id : ℤ
  createdAt : Datetime
  images : List HotelImageResponse
  deriving DecidableEq

/-- What the driver makes of a value of a `NUMERIC` column: it has the column's decimals. -/
def columnDecimal (scale : ℕ) (h : scale ≤ 6) (q : ℚ) : Decimal :=
  ⟨SqlTypes.roundHalfAway (q * 10 ^ scale), scale, h⟩

def HotelImage.response (i : HotelImage) : HotelImageResponse := ⟨i.id, i.imageUrl, i.isPrimary⟩

/-- `HotelResponse.model_validate` of a row. `clock` is the driver's reading of a
stored time, in the zone of the session. -/
def Hotel.response (clock : ℤ → Datetime) (s : Store) (h : Hotel) : HotelResponse where
  name := h.name
  description := h.description
  address := h.address
  city := h.city
  country := h.country
  countryCode := h.countryCode
  phone := h.phone
  email := h.email
  latitude := h.latitude.map (columnDecimal 6 (by decide))
  longitude := h.longitude.map (columnDecimal 6 (by decide))
  rating := columnDecimal 2 (by decide) h.rating
  id := h.id
  createdAt := clock h.createdAt
  images := (s.hotelImages.select fun i => i.hotelId = h.id).map HotelImage.response

/-! ### Dumping -/

inductive PyObject
  | decimal (d : Decimal)
  | datetime (t : Datetime)

/-- `default=str` -/
def PyObject.str : PyObject → String
  | .decimal d => d.str
  | .datetime t => Datetime.str t

abbrev Dumped := Value PyObject

def dumpOptional {α : Type} (dump : α → Dumped) : Option α → Dumped
  | none => .null
  | some a => dump a

def dumpDecimal (d : Decimal) : Dumped := .other (.decimal d)

def HotelImageResponse.modelDump (i : HotelImageResponse) : Dumped :=
  .dict [("id", .int i.id), ("image_url", .str i.imageUrl), ("is_primary", .bool i.isPrimary)]

def HotelResponse.modelDump (r : HotelResponse) : Dumped :=
  .dict [("name", .str r.name),
    ("description", dumpOptional .str r.description),
    ("address", dumpOptional .str r.address),
    ("city", dumpOptional .str r.city),
    ("country", dumpOptional .str r.country),
    ("country_code", dumpOptional .str r.countryCode),
    ("phone", dumpOptional .str r.phone),
    ("email", dumpOptional .str r.email),
    ("latitude", dumpOptional dumpDecimal r.latitude),
    ("longitude", dumpOptional dumpDecimal r.longitude),
    ("rating", dumpDecimal r.rating),
    ("id", .int r.id),
    ("created_at", .other (.datetime r.createdAt)),
    ("images", .list (r.images.map HotelImageResponse.modelDump))]

/-! ### Validating -/

def readStr : Loaded → Option String
  | .str s => some s
  | _ => none

def readInt : Loaded → Option ℤ
  | .int i => some i
  | _ => none

def readBool : Loaded → Option Bool
  | .bool b => some b
  | _ => none

def readDecimal : Loaded → Option Decimal
  | .str s => Decimal.read s
  | .int i => Decimal.ofParts i 0
  | _ => none

def readDatetime : Loaded → Option Datetime
  | .str s => Datetime.read s
  | _ => none

def readList {α : Type} (read : Loaded → Option α) : Loaded → Option (List α)
  | .list vs => vs.mapM read
  | _ => none

section

variable {α : Type} (read : Loaded → Option α) (name : String) (v : Loaded)

def required : Option α := (v.field name).bind read

/-- `Optional[...] = None` -/
def nullable : Option (Option α) :=
  match v.field name with
  | none => some none
  | some .null => some none
  | some x => (read x).map some

def defaulted (default : α) : Option α :=
  match v.field name with
  | none => some default
  | some x => read x

end

def HotelImageResponse.validate (v : Loaded) : Option HotelImageResponse := do
  let id ← required readInt "id" v
  let imageUrl ← required readStr "image_url" v
  let isPrimary ← required readBool "is_primary" v
  return { id, imageUrl, isPrimary }

def HotelResponse.validate (v : Loaded) : Option HotelResponse := do
  let name ← required readStr "name" v
  let description ← nullable readStr "description" v
  let address ← nullable readStr "address" v
  let city ← nullable readStr "city" v
  let country ← nullable readStr "country" v
  let countryCode ← nullable readStr "country_code" v
  let phone ← nullable readStr "phone" v
  let email ← nullable readStr "email" v
  let latitude ← nullable readDecimal "latitude" v
  let longitude ← nullable readDecimal "longitude" v
  let rating ← defaulted readDecimal "rating" v ⟨0, 1, by decide⟩
  let id ← required readInt "id" v
  let createdAt ← required readDatetime "created_at" v
  let images ← defaulted (readList HotelImageResponse.validate) "images" v []
  return { name, description, address, city, country, countryCode, phone, email, latitude,
           longitude, rating, id, createdAt, images }

/-! ### What is dumped validates to what it was -/

theorem plain_dumpOptional {α : Type} (dump : α → Dumped) (o : Option α) :
    plain PyObject.str (dumpOptional dump o) =
      o.elim .null fun a => plain PyObject.str (dump a) := by
  cases o with
  | none => rfl
  | some a => rfl

theorem required_of_field {α : Type} {read : Loaded → Option α} {name : String} {v x : Loaded}
    {a : α} (hv : v.field name = some x) (hread : read x = some a) :
    required read name v = some a := by
  rw [required, hv, Option.bind_some, hread]

theorem defaulted_of_field {α : Type} {read : Loaded → Option α} {name : String} {v x : Loaded}
    {a default : α} (hv : v.field name = some x) (hread : read x = some a) :
    defaulted read name v default = some a := by
  rw [defaulted, hv]
  exact hread

theorem nullable_dumped {α : Type} {read : Loaded → Option α} {dump : α → Dumped} {name : String}
    {v : Loaded} {o : Option α}
    (hv : v.field name = some (plain PyObject.str (dumpOptional dump o)))
    (hread : ∀ a, read (plain PyObject.str (dump a)) = some a)
    (hnull : ∀ a, plain PyObject.str (dump a) ≠ .null) : nullable read name v = some o := by
  unfold nullable
  rw [hv, plain_dumpOptional]
  cases o with
  | none => rfl
  | some a =>
    have hn := hnull a
    have hr := hread a
    dsimp only [Option.elim_some]
    generalize plain PyObject.str (dump a) = x at hn hr
    cases x with
    | null => exact absurd rfl hn
    | _ => dsimp only; rw [hr, Option.map_some]

theorem readList_plain {α : Type} {read : Loaded → Option α} {dump : α → Dumped}
    (h : ∀ a, read (plain PyObject.str (dump a)) = some a) (as : List α) :
    readList read (plain PyObject.str (.list (as.map dump))) = some as := by
  have hread : read ∘ plain PyObject.str ∘ dump = fun a => pure a := funext h
  rw [plain, readList, plainItems_eq_map, List.map_map, List.mapM_map, hread, List.mapM_pure,
    List.map_id']
  rfl

@[simp] theorem readDecimal_plain (d : Decimal) :
    readDecimal (plain PyObject.str (dumpDecimal d)) = some d := Decimal.read_str d

theorem HotelImageResponse.validate_modelDump (i : HotelImageResponse) :
    HotelImageResponse.validate (plain PyObject.str i.modelDump) = some i := by
  rfl

theorem nullable_str {name : String} {v : Loaded} {o : Option String}
    (hv : v.field name = some (plain PyObject.str (dumpOptional .str o))) :
    nullable readStr name v = some o :=
  nullable_dumped hv (fun _ => rfl) fun _ h => by cases h

theorem nullable_decimal {name : String} {v : Loaded} {o : Option Decimal}
    (hv : v.field name = some (plain PyObject.str (dumpOptional dumpDecimal o))) :
    nullable readDecimal name v = some o :=
  nullable_dumped hv readDecimal_plain fun _ h => by cases h

theorem HotelResponse.validate_modelDump (r : HotelResponse) :
    HotelResponse.validate (plain PyObject.str r.modelDump) = some r := by
  generalize hv : plain PyObject.str r.modelDump = v
  have hname : required readStr "name" v = some r.name :=
    required_of_field (x := .str r.name) (by rw [← hv]; rfl) rfl
  have hdescription : nullable readStr "description" v = some r.description :=
    nullable_str (by rw [← hv]; rfl)
  have haddress : nullable readStr "address" v = some r.address :=
    nullable_str (by rw [← hv]; rfl)
  have hcity : nullable readStr "city" v = some r.city := nullable_str (by rw [← hv]; rfl)
  have hcountry : nullable readStr "country" v = some r.country :=
    nullable_str (by rw [← hv]; rfl)
  have hcode : nullable readStr "country_code" v = some r.countryCode :=
    nullable_str (by rw [← hv]; rfl)
  have hphone : nullable readStr "phone" v = some r.phone := nullable_str (by rw [← hv]; rfl)
  have hemail : nullable readStr "email" v = some r.email := nullable_str (by rw [← hv]; rfl)
  have hlatitude : nullable readDecimal "latitude" v = some r.latitude :=
    nullable_decimal (by rw [← hv]; rfl)
  have hlongitude : nullable readDecimal "longitude" v = some r.longitude :=
    nullable_decimal (by rw [← hv]; rfl)
  have hrating : defaulted readDecimal "rating" v ⟨0, 1, by decide⟩ = some r.rating :=
    defaulted_of_field (x := .str r.rating.str) (by rw [← hv]; rfl) (Decimal.read_str r.rating)
  have hid : required readInt "id" v = some r.id :=
    required_of_field (x := .int r.id) (by rw [← hv]; rfl) rfl
  have hcreated : required readDatetime "created_at" v = some r.createdAt :=
    required_of_field (x := .str (Datetime.str r.createdAt)) (by rw [← hv]; rfl)
      (Datetime.read_str r.createdAt)
  have himages : defaulted (readList HotelImageResponse.validate) "images" v [] =
      some r.images :=
    defaulted_of_field (x := plain PyObject.str (.list (r.images.map _))) (by rw [← hv]; rfl)
      (readList_plain HotelImageResponse.validate_modelDump r.images)
  unfold HotelResponse.validate
  simp only [hname, hdescription, haddress, hcity, hcountry, hcode, hphone, hemail, hlatitude,
    hlongitude, hrating, hid, hcreated, himages, Option.bind_eq_bind, Option.bind_some]
  rfl

/-! ### Keys -/

def hotelListKey : String := "hotel:list"

def hotelDetailKey (hotelId : ℤ) : String :=
  "hotel:detail:" ++ String.ofList (Numerals.intText hotelId)

theorem hotelDetailKey_ne_list (hotelId : ℤ) : hotelDetailKey hotelId ≠ hotelListKey := by
  intro h
  have htext := congrArg String.toList h
  rw [hotelDetailKey, String.toList_append] at htext
  cases htext

theorem hotelDetailKey_inj {hotelId hotelId' : ℤ}
    (h : hotelDetailKey hotelId = hotelDetailKey hotelId') : hotelId = hotelId' := by
  have htext := congrArg String.toList h
  unfold hotelDetailKey at htext
  rw [String.toList_append, String.toList_append] at htext
  have htail := List.append_cancel_left htext
  rw [String.toList_ofList, String.toList_ofList] at htail
  exact Numerals.intText_injective htail

/-! ### The endpoints -/

/-- `cached is not None`: there is a text, it is not empty, and it is not `null`. -/
def cacheGet (cache : Cache String String) (key : String) : Option Loaded := do
  let raw ← cache key
  if raw = "" then none
  else match loads raw with
    | some .null => none
    | cached => cached

/-- The database hands out the rows of a query without `ORDER BY` in any order. -/
structure RowOrder where
  arrange : List Hotel → List Hotel
  perm : ∀ rows, (arrange rows).Perm rows

structure HotelWorld where
  store : Store
  cache : Cache String String

/-- A response that does not validate. -/
def responseInvalid : Error := .http 500 "Internal Server Error"

def listHotels (clock : ℤ → Datetime) (w : HotelWorld) (order : RowOrder) :
    Except Error (List HotelResponse) × Cache String String :=
  match cacheGet w.cache hotelListKey with
  | some cached => (found (readList HotelResponse.validate cached) responseInvalid, w.cache)
  | none =>
    let hotels := (order.arrange w.store.hotels.rows).map (Hotel.response clock w.store)
    let payload := .list (hotels.map HotelResponse.modelDump)
    (.ok hotels, put w.cache hotelListKey (dumps PyObject.str payload))

def getHotel (clock : ℤ → Datetime) (w : HotelWorld) (hotelId : ℤ) :
    Except Error HotelResponse × Cache String String :=
  match cacheGet w.cache (hotelDetailKey hotelId) with
  | some cached => (found (HotelResponse.validate cached) responseInvalid, w.cache)
  | none =>
    match w.store.hotels.get hotelId with
    | none => (.error hotelNotFound, w.cache)
    | some hotel =>
      let response := hotel.response clock w.store
      (.ok response, put w.cache (hotelDetailKey hotelId) (dumps PyObject.str response.modelDump))

inductive HotelEvent
  | create (env : Env) (data : HotelCreate)
  | update (hotelId : ℤ) (data : HotelUpdate)
  | delete (hotelId : ℤ)
  | list (order : RowOrder)
  | get (hotelId : ℤ)
  | expire (key : String)

/-- The keys are deleted after the commit, and only after one. -/
def HotelWorld.step (clock : ℤ → Datetime) (w : HotelWorld) : HotelEvent → HotelWorld
  | .create env data =>
    match createHotel env w.store data with
    | .error _ => w
    | .ok r => ⟨r.2, drop w.cache hotelListKey⟩
  | .update hotelId data =>
    match updateHotel w.store hotelId data with
    | .error _ => w
    | .ok r => ⟨r.2, drop (drop w.cache hotelListKey) (hotelDetailKey hotelId)⟩
  | .delete hotelId =>
    match deleteHotel w.store hotelId with
    | .error _ => w
    | .ok r => ⟨r.2, drop (drop w.cache hotelListKey) (hotelDetailKey hotelId)⟩
  | .list order => { w with cache := (listHotels clock w order).2 }
  | .get hotelId => { w with cache := (getHotel clock w hotelId).2 }
  | .expire key => { w with cache := drop w.cache key }

def HotelWorld.start (s : Store) : HotelWorld := ⟨s, fun _ => none⟩

/-- The hotels of the table, in any order. -/
def AllHotels (clock : ℤ → Datetime) (s : Store) (rs : List HotelResponse) : Prop :=
  rs.Perm (s.hotels.rows.map (Hotel.response clock s))

/-- What the table has for this id. -/
def currentHotel (clock : ℤ → Datetime) (s : Store) (hotelId : ℤ) : Except Error HotelResponse :=
  (found (s.hotels.get hotelId) hotelNotFound).map (Hotel.response clock s)

/-- A response is the one that the table gives. -/
def AnswersCurrent (clock : ℤ → Datetime) (w : HotelWorld) : HotelEvent → Prop
  | .list order => ∃ rs, (listHotels clock w order).1 = .ok rs ∧ AllHotels clock w.store rs
  | .get hotelId => (getHotel clock w hotelId).1 = currentHotel clock w.store hotelId
  | _ => True

/-! ### What is cached -/

/-- A text under a key of the hotels is the dump of what the table gives. -/
structure ShowsHotels (clock : ℤ → Datetime) (s : Store) (key raw : String) : Prop where
  list : key = hotelListKey → ∃ rs, AllHotels clock s rs ∧
    raw = dumps PyObject.str (.list (rs.map HotelResponse.modelDump))
  detail : ∀ hotelId, key = hotelDetailKey hotelId → ∃ hotel,
    s.hotels.get hotelId = some hotel ∧
      raw = dumps PyObject.str (hotel.response clock s).modelDump

theorem dumps_ne_empty (v : Dumped) : dumps PyObject.str v ≠ "" := by
  obtain ⟨c, cs, htext, _⟩ := text_start PyObject.str v
  intro h
  have hlist := congrArg String.toList h
  rw [dumps, String.toList_ofList, htext] at hlist
  cases hlist

theorem cacheGet_dumped {cache : Cache String String} {key : String} {v : Dumped}
    (h : cache key = some (dumps PyObject.str v)) (hnull : plain PyObject.str v ≠ .null) :
    cacheGet cache key = some (plain PyObject.str v) := by
  unfold cacheGet
  rw [h]
  dsimp only [Option.bind_eq_bind, Option.bind_some]
  rw [if_neg (dumps_ne_empty v), loads_dumps]
  generalize plain PyObject.str v = x at hnull
  cases x with
  | null => exact absurd rfl hnull
  | _ => rfl

theorem cacheGet_missing {cache : Cache String String} {key : String} (h : cache key = none) :
    cacheGet cache key = none := by
  unfold cacheGet
  rw [h]
  rfl

section

variable {clock : ℤ → Datetime} {w : HotelWorld}

abbrev HotelWorld.Coherent (clock : ℤ → Datetime) (w : HotelWorld) : Prop :=
  ReadThrough.Coherent (ShowsHotels clock) w.store w.cache

theorem listHotels_hit {order : RowOrder} {rs : List HotelResponse}
    (h : w.cache hotelListKey =
      some (dumps PyObject.str (.list (rs.map HotelResponse.modelDump)))) :
    listHotels clock w order = (.ok rs, w.cache) := by
  have hget := cacheGet_dumped h (by rw [plain]; exact fun h => by cases h)
  have hread := readList_plain HotelResponse.validate_modelDump rs
  unfold listHotels
  rw [hget]
  dsimp only
  rw [hread, found]

theorem getHotel_hit {hotelId : ℤ} {r : HotelResponse}
    (h : w.cache (hotelDetailKey hotelId) = some (dumps PyObject.str r.modelDump)) :
    getHotel clock w hotelId = (.ok r, w.cache) := by
  have hget := cacheGet_dumped h (by rw [HotelResponse.modelDump, plain]; exact fun h => by cases h)
  unfold getHotel
  rw [hget]
  dsimp only
  rw [HotelResponse.validate_modelDump, found]

theorem listHotels_spec (h : w.Coherent clock) (order : RowOrder) :
    (∃ rs, (listHotels clock w order).1 = .ok rs ∧ AllHotels clock w.store rs) ∧
      ReadThrough.Coherent (ShowsHotels clock) w.store (listHotels clock w order).2 := by
  cases hraw : w.cache hotelListKey with
  | some raw =>
    obtain ⟨rs, hall, rfl⟩ := (h hotelListKey raw hraw).list rfl
    rw [listHotels_hit hraw]
    exact ⟨⟨rs, rfl, hall⟩, h⟩
  | none =>
    unfold listHotels
    rw [cacheGet_missing hraw]
    have hall : AllHotels clock w.store
        ((order.arrange w.store.hotels.rows).map (Hotel.response clock w.store)) :=
      (order.perm w.store.hotels.rows).map _
    refine ⟨⟨_, rfl, hall⟩, h.put ⟨fun _ => ⟨_, hall, rfl⟩, fun hotelId hkey => ?_⟩⟩
    exact absurd hkey.symm (hotelDetailKey_ne_list hotelId)

theorem getHotel_spec (h : w.Coherent clock) (hotelId : ℤ) :
    (getHotel clock w hotelId).1 = currentHotel clock w.store hotelId ∧
      ReadThrough.Coherent (ShowsHotels clock) w.store (getHotel clock w hotelId).2 := by
  unfold currentHotel
  cases hraw : w.cache (hotelDetailKey hotelId) with
  | some raw =>
    obtain ⟨hotel, hrow, rfl⟩ := (h _ raw hraw).detail hotelId rfl
    rw [getHotel_hit hraw, hrow]
    exact ⟨rfl, h⟩
  | none =>
    unfold getHotel
    rw [cacheGet_missing hraw]
    cases hrow : w.store.hotels.get hotelId with
    | none => exact ⟨rfl, h⟩
    | some hotel =>
      refine ⟨rfl, h.put ⟨fun hkey => ?_, fun hotelId' hkey => ?_⟩⟩
      · exact absurd hkey (hotelDetailKey_ne_list hotelId)
      · rw [← hotelDetailKey_inj hkey]
        exact ⟨hotel, hrow, rfl⟩

/-! ### Writes -/

theorem response_of_images {s s' : Store} (h : s'.hotelImages = s.hotelImages) :
    Hotel.response clock s' = Hotel.response clock s := by
  funext hotel
  unfold Hotel.response
  rw [h]

/-- A write drops the list and keeps every row whose entry it leaves. -/
theorem coherent_of_write {s s' : Store} {c c' : Cache String String}
    (h : ReadThrough.Coherent (ShowsHotels clock) s c) (hsub : Sub c' c)
    (himages : s'.hotelImages = s.hotelImages) (hlist : c' hotelListKey = none)
    (hrow : ∀ hotelId hotel, c' (hotelDetailKey hotelId) ≠ none →
      s.hotels.get hotelId = some hotel → s'.hotels.get hotelId = some hotel) :
    ReadThrough.Coherent (ShowsHotels clock) s' c' := by
  intro key raw hraw
  have hshows := h key raw (hsub key raw hraw)
  constructor
  · intro hkey
    rw [hkey, hlist] at hraw
    cases hraw
  · intro hotelId hkey
    obtain ⟨hotel, hget, htext⟩ := hshows.detail hotelId hkey
    have hleft : c' (hotelDetailKey hotelId) ≠ none := by
      rw [← hkey, hraw]
      exact fun h => by cases h
    refine ⟨hotel, hrow hotelId hotel hleft hget, ?_⟩
    rw [response_of_images himages]
    exact htext

theorem coherent_of_change {s' : Store} {hotelId : ℤ} (h : w.Coherent clock)
    (himages : s'.hotelImages = w.store.hotelImages)
    (hrow : ∀ other, other ≠ hotelId → s'.hotels.get other = w.store.hotels.get other) :
    ReadThrough.Coherent (ShowsHotels clock) s'
      (drop (drop w.cache hotelListKey) (hotelDetailKey hotelId)) := by
  have hlist : drop w.cache hotelListKey hotelListKey = none := drop_eq_none.mpr (Or.inl rfl)
  refine coherent_of_write h ((drop_sub _ _).trans (drop_sub _ _)) himages
    (drop_eq_none.mpr (Or.inr hlist)) fun other hotel hleft hget => ?_
  have hne : other ≠ hotelId := by
    rintro rfl
    exact hleft (drop_eq_none.mpr (Or.inl rfl))
  rw [hrow other hne]
  exact hget

theorem coherent_create (h : w.Coherent clock) (env : Env) (data : HotelCreate) :
    (w.step clock (.create env data)).Coherent clock := by
  rw [HotelWorld.step]
  cases hresult : createHotel env w.store data with
  | error e => exact h
  | ok r =>
    obtain ⟨row, _, rfl⟩ := createHotel_eq_ok.mp hresult
    have hlist : drop w.cache hotelListKey hotelListKey = none := drop_eq_none.mpr (Or.inl rfl)
    refine coherent_of_write h (drop_sub _ _) rfl hlist ?_
    exact fun hotelId hotel _ hget => Table.get_insert_of_get _ hget

theorem coherent_update (h : w.Coherent clock) (hotelId : ℤ) (data : HotelUpdate) :
    (w.step clock (.update hotelId data)).Coherent clock := by
  rw [HotelWorld.step]
  cases hresult : updateHotel w.store hotelId data with
  | error e => exact h
  | ok r =>
    obtain ⟨hotel, changed, row, _, _, _, rfl⟩ := updateHotel_eq_ok.mp hresult
    refine coherent_of_change h rfl fun other hne => ?_
    show (w.store.hotels.update hotelId fun _ => row).get other = w.store.hotels.get other
    rw [Table.get_update]
    simp only [if_neg hne, Option.map_id']

theorem coherent_delete (h : w.Coherent clock) (hotelId : ℤ) :
    (w.step clock (.delete hotelId)).Coherent clock := by
  rw [HotelWorld.step]
  cases hresult : deleteHotel w.store hotelId with
  | error e => exact h
  | ok r =>
    obtain ⟨_, _, _, rfl⟩ := deleteHotel_eq_ok.mp hresult
    refine coherent_of_change h rfl fun other hne => ?_
    show (w.store.hotels.delete hotelId).get other = w.store.hotels.get other
    rw [Table.get_delete, if_neg hne]

theorem coherent_step (h : w.Coherent clock) (e : HotelEvent) :
    (w.step clock e).Coherent clock := by
  cases e with
  | create env data => exact coherent_create h env data
  | update hotelId data => exact coherent_update h hotelId data
  | delete hotelId => exact coherent_delete h hotelId
  | list order => exact (listHotels_spec h order).2
  | get hotelId => exact (getHotel_spec h hotelId).2
  | expire key => exact h.of_sub (drop_sub _ key)

theorem answersCurrent_of_coherent (h : w.Coherent clock) (e : HotelEvent) :
    AnswersCurrent clock w e := by
  cases e with
  | list order => exact (listHotels_spec h order).1
  | get hotelId => exact (getHotel_spec h hotelId).1
  | _ => trivial

end

/-! ### Runs -/

/-- In a run from a cold cache every list holds the response of each hotel of the
table, and every single hotel is answered as the table has it. -/
theorem hotel_responses_current (clock : ℤ → Datetime) (s : Store) (es : List HotelEvent) :
    Along (HotelWorld.step clock) (AnswersCurrent clock) (.start s) es := by
  have hcold : (HotelWorld.start s).Coherent clock := fun _ _ hraw => by cases hraw
  exact along_of_invariant (I := HotelWorld.Coherent clock)
    (fun w e h => coherent_step h e) (fun w e h => answersCurrent_of_coherent h e) hcold

end HotelMs
