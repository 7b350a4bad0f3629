import HotelMs.Reports
import HotelMs.Lib.PyJson
import HotelMs.Lib.Segments
import Mathlib.Data.List.Sort

/-!
# Room recommendations (`recommend` in `api/v1/public/ai.py`)

The text of the language model is parsed and filled up with the rooms it names. What
raises on the way leads to the fallback, what the response model refuses to an error.
-/

namespace HotelMs

open Tables Numerals PyJson Segments

/-- More of Python's floats: `float(i)`, `int(x)`, `abs(x)`, the integer a float equals,
`repr(x)`, and the float of a numeral. -/
structure RecommendFloat extends PyFloat where
  ofInt : ℤ → Option Carrier
  toInt : Carrier → Option ℤ
  abs : Carrier → Carrier
  whole : Carrier → Option ℤ
  repr : Carrier → String
  parse : List Char → Carrier

structure RecommendRequest where
  occasion : String
  budgetMax : ℤ
  guests : ℤ

structure RoomRecommendation (F : RecommendFloat) where
  roomId : ℤ
  hotelName : String
  roomName : String
  pricePerNight : F.Carrier
  matchScore : ℤ
  matchReason : PyStr
  styleTags : List PyStr

structure RecommendResponse (F : RecommendFloat) where
  recommendations : List (RoomRecommendation F)
  summary : PyStr

/-- Both are a 500: an `OverflowError`, and a value the response model refuses. -/
inductive RecommendError
  | overflow
  | invalidResponse
  deriving DecidableEq

/-! ### Rooms -/

section

variable (F : RecommendFloat) (s : Store)

def affordable (budgetMax guests : ℤ) (r : Room) : Bool :=
  (s.hotels.get r.hotelId).isSome && r.isActive &&
    r.basePrice.any (fun p => decide (p ≤ (budgetMax : ℚ))) &&
    r.capacity.any fun c => decide (guests ≤ c)

/-- `order` is how the database answers a query without `ORDER BY` this time. -/
def queryRooms (order : List Room → List Room) (budgetMax guests : ℤ) : List Room :=
  (order (s.rooms.select (affordable s budgetMax guests))).take 20

/-- `int(budget_max * 1.3)`. -/
def relaxedBudget (budgetMax : ℤ) : Option ℤ := do
  let x ← F.ofInt budgetMax
  F.toInt (F.mul x (F.ofRat (13 / 10)))

/-- The rooms to choose from; the second query may be answered in another order. -/
def candidateRooms (order order' : List Room → List Room) (body : RecommendRequest) :
    Except RecommendError (List Room) :=
  let rooms := queryRooms s order body.budgetMax body.guests
  if rooms = [] then
    match relaxedBudget F body.budgetMax with
    | none => .error .overflow
    | some relaxed => .ok (queryRooms s order' relaxed body.guests)
  else .ok rooms

def roomHotelName (r : Room) : String :=
  ((s.hotels.get r.hotelId).map Hotel.name).getD "Unknown Hotel"

def roomTypeName (r : Room) : String :=
  ((s.roomTypes.get r.roomTypeId).map RoomType.name).getD "Standard"

def roomPrice (r : Room) : F.Carrier := F.ofRat (r.basePrice.getD 0)

/-- `f"{room_type_name} – Room {room.room_number or shown}"`. -/
def roomName (r : Room) (shown : String) : String :=
  roomTypeName s r ++ " – Room " ++ (r.roomNumber.filter (· ≠ "")).getD shown

/-! ### The fallback -/

/-- The five rooms whose price is closest to the budget. -/
def closestRooms (rooms : List Room) (budgetMax : ℤ) : Option (List Room) := do
  let budget ← F.ofInt budgetMax
  let distance := fun r => F.abs (F.sub (roomPrice F r) budget)
  return (rooms.insertionSort fun r r' => F.lt (distance r') (distance r) = false).take 5

def fallbackRecommendation (lower : String → String) (r : Room) (i : ℕ) : RoomRecommendation F where
  roomId := r.id
  hotelName := roomHotelName s r
  roomName := roomName s r (String.ofList (intText r.id))
  pricePerNight := roomPrice F r
  matchScore := max (60 - i * 5) 40
  matchReason := ofText ("This " ++ lower (roomTypeName s r) ++ " room at " ++ roomHotelName s r ++
    " fits your budget and guest capacity requirements.").toList
  styleTags := [ofText (roomTypeName s r).toList, ofText "Comfortable".toList,
    ofText "Value".toList]

def fallbackRecommendations (lower : String → String) (rooms : List Room) (budgetMax : ℤ)
    (summary : String) : Except RecommendError (RecommendResponse F) :=
  match closestRooms F rooms budgetMax with
  | none => .error .overflow
  | some five => .ok ⟨five.mapIdx fun i r => fallbackRecommendation F s lower r i,
      ofText summary.toList⟩

end

/-! ### The answer of the model -/

section

variable {F : RecommendFloat}

/-- The strip of white space and of a code fence. -/
def unfenced (text : List Char) : List Char :=
  let raw := PyText.stripChars text
  if "```".toList <+: raw then
    let inner := (splitText "```".toList raw).getD 1 []
    PyText.stripChars (if "json".toList <+: inner then inner.drop 4 else inner)
  else raw

/-- `ai_recs[:5]`; the characters of a text are texts. -/
def firstFive : PyValue F.Carrier → Option (List (PyValue F.Carrier))
  | .list vs => some (vs.take 5)
  | .str s => some ((s.take 5).map fun c => .str [c])
  | _ => none

/-- The entries and the summary of a text; `levels` is how deep the reader may go. -/
def parseAnswer (F : RecommendFloat) (levels : ℕ) (text : List Char) :
    Option (List (PyValue F.Carrier) × PyValue F.Carrier) :=
  match loads F.parse levels (unfenced text) with
  | some (.dict fields) =>
    (firstFive ((lookup "recommendations".toList fields).getD (.list []))).map fun entries =>
      (entries, (lookup "summary".toList fields).getD (.str []))
  | _ => none

/-- `rec.get(name, default)`. -/
def entryField (name : List Char) (default : PyValue F.Carrier) :
    PyValue F.Carrier → PyValue F.Carrier
  | .dict fields => (lookup name fields).getD default
  | _ => default

def entryId (e : PyValue F.Carrier) : PyValue F.Carrier := entryField "room_id".toList .null e

/-- The integer that a key equals. -/
def keyInt : PyValue F.Carrier → Option ℤ
  | .bool b => some (if b then 1 else 0)
  | .int i => some i
  | .float x => F.whole x
  | _ => none

/-- `room_map.get(rec.get("room_id"))`. -/
def entryRoom (rooms : List Room) (e : PyValue F.Carrier) : Option Room :=
  (keyInt (entryId e)).bind fun i => rooms.find? fun r => r.id = i

/-- `int(rec.get("match_score", 70))`. -/
def entryScore (e : PyValue F.Carrier) : Option ℤ :=
  match entryField "match_score".toList (.int 70) e with
  | .bool b => some (if b then 1 else 0)
  | .int i => some i
  | .float x => F.toInt x
  | .str s => intOf s
  | _ => none

def entryReason (e : PyValue F.Carrier) : PyValue F.Carrier :=
  entryField "match_reason".toList (.str []) e

def entryTags (typeName : String) (e : PyValue F.Carrier) : PyValue F.Carrier :=
  entryField "style_tags".toList (.list [.str (ofText typeName.toList)]) e

def hasFields : PyValue F.Carrier → Bool
  | .dict _ => true
  | _ => false

/-- What can be the key of a dictionary. -/
def hashable : PyValue F.Carrier → Bool
  | .list _ => false
  | .dict _ => false
  | _ => true

/-- `str(rid)` of a key that names a room. -/
def keyText : PyValue F.Carrier → String
  | .bool b => if b then "True" else "False"
  | .int i => String.ofList (intText i)
  | .float x => F.repr x
  | _ => ""

/-- A dictionary of `hydrated`, not yet validated. -/
structure Hydrated (F : RecommendFloat) where
  room : Room
  hotelName : String
  roomName : String
  pricePerNight : F.Carrier
  matchScore : ℤ
  matchReason : PyValue F.Carrier
  styleTags : PyValue F.Carrier

variable (s : Store) (rooms : List Room)

def hydratedEntry (e : PyValue F.Carrier) (room : Room) (score : ℤ) : Hydrated F where
  room := room
  hotelName := roomHotelName s room
  roomName := roomName s room (keyText (entryId e))
  pricePerNight := roomPrice F room
  matchScore := score
  matchReason := entryReason e
  styleTags := entryTags (roomTypeName s room) e

/-- The loop over the entries; `none` when one of them raises. -/
def hydrate : List (PyValue F.Carrier) → Option (List (Hydrated F))
  | [] => some []
  | e :: es =>
    if hasFields e && hashable (entryId e) then
      match entryRoom rooms e with
      | none => hydrate es
      | some room => do
        let score ← entryScore e
        let rest ← hydrate es
        return hydratedEntry s e room score :: rest
    else none

/-! ### The response model -/

def validText : PyValue F.Carrier → Option PyStr
  | .str s => some s
  | _ => none

def validTexts : PyValue F.Carrier → Option (List PyStr)
  | .list vs => vs.mapM validText
  | _ => none

def Hydrated.validate (h : Hydrated F) : Option (RoomRecommendation F) := do
  let reason ← validText h.matchReason
  let tags ← validTexts h.styleTags
  return ⟨h.room.id, h.hotelName, h.roomName, h.pricePerNight, h.matchScore, reason, tags⟩

def validateResponse (recommendations : List (Hydrated F)) (summary : PyValue F.Carrier) :
    Except RecommendError (RecommendResponse F) :=
  match recommendations.mapM Hydrated.validate, validText summary with
  | some recs, some text => .ok ⟨recs, text⟩
  | _, _ => .error .invalidResponse

/-! ### The endpoint -/

/-- What a call of the endpoint meets. `reply` is `none` without an API key, and holds
`none` when the call of the model raises. -/
structure RecommendEnv where
  order : List Room → List Room
  order' : List Room → List Room
  order_perm : ∀ rooms, (order rooms).Perm rooms
  order_perm' : ∀ rooms, (order' rooms).Perm rooms
  lower : String → String
  levels : ℕ
  reply : Option (Option (List Char))

def numberText (i : ℤ) : String := String.ofList (intText i)

def recommend (F : RecommendFloat) (s : Store) (env : RecommendEnv) (body : RecommendRequest) :
    Except RecommendError (RecommendResponse F) :=
  match candidateRooms F s env.order env.order' body with
  | .error e => .error e
  | .ok rooms =>
    if rooms = [] then
      .ok ⟨[], ofText ("No rooms currently match your criteria. " ++
        "Consider adjusting your budget or guest count.").toList⟩
    else
      match env.reply with
      | none => fallbackRecommendations F s env.lower rooms body.budgetMax
          ("Based on your preferences for a " ++ body.occasion ++ " trip with " ++
            numberText body.guests ++ " guest(s), here are our closest matches within a $" ++
            numberText body.budgetMax ++ "/night budget. Contact us for personalised advice.")
      | some reply =>
        let hydrated := do
          let text ← reply
          let (entries, summary) ← parseAnswer F env.levels text
          let recommendations ← hydrate s rooms entries
          return (recommendations, summary)
        match hydrated with
        | some (recommendations, summary) => validateResponse recommendations summary
        | none => fallbackRecommendations F s env.lower rooms body.budgetMax
            ("Here are our top picks for your " ++ body.occasion ++ " stay with " ++
              numberText body.guests ++
              " guest(s). All options are within or close to your budget range.")

end

end HotelMs
