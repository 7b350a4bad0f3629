import HotelMs.Sessions
import HotelMs.Lib.Base64
import HotelMs.Lib.Json

/-!
# What the pages read from a token

`core/security.py` signs the claims of a user. `contexts/AuthContext.jsx` reads
them with `decodeJwt`, which puts the letters of the token's alphabet back;
`pages/public/Login.jsx` and `pages/auth/AuthCallback.jsx` hand the same part of
the token to `atob` as it is. A token is a list of characters.
-/

namespace HotelMs

open Base64 Json JsonStrings Numerals

/-! ### The server's side -/

def Role.value : Role → String
  | .guest => "guest"
  | .staff => "staff"
  | .hotelAdmin => "hotel_admin"
  | .superAdmin => "super_admin"

def TokenType.value : TokenType → String
  | .access => "access"
  | .refresh => "refresh"

/-- `uuid.uuid4().hex` -/
def uuidHex (n : ℕ) : String :=
  String.ofList ((List.range 32).map fun i => hexDigit (n / 16 ^ (31 - i) % 16))

/-- The dict that is signed, in the order its keys are set. -/
def Claims.payload (c : Claims) : List (String × Loaded) :=
  [("user_id", .int c.userId), ("role", .str c.role.value),
    ("hotel_id", c.hotelId.elim .null .int), ("type", .str c.type.value)] ++
  c.jti.toList.map (fun n => ("jti", .str (uuidHex n))) ++ [("exp", .int c.exp)]

/-- `json.dumps(payload, separators=(",", ":"))` of a dict without nested values. -/
def compactFields : List (String × Loaded) → List Char
  | [] => ['\x7d']
  | (k, v) :: fields => literal k ++ ':' :: text Empty.elim v ++
      match fields with
      | [] => ['\x7d']
      | _ :: _ => ',' :: compactFields fields

def compactText (fields : List (String × Loaded)) : List Char := '\x7b' :: compactFields fields

-- the writer uses ASCII only, where each character is its byte
def asciiByte (c : Char) : Byte := ⟨c.toNat % 256, Nat.mod_lt _ (by decide)⟩

def asciiBytes (cs : List Char) : List Byte := cs.map asciiByte

def jwtHeader (algorithm : String) : List Char :=
  compactText [("alg", .str algorithm), ("typ", .str "JWT")]

/-- The three parts of a signed token. -/
def jwtEncode (algorithm : String) (sign : List Char → List Byte) (c : Claims) : List Char :=
  let signed := urlEncode (asciiBytes (jwtHeader algorithm)) ++
    '.' :: urlEncode (asciiBytes (compactText c.payload))
  signed ++ '.' :: urlEncode (sign signed)

/-- python-jose writes a token in these three parts; a `jti` has 32 digits. -/
structure CompactJose extends Jose (List Char) where
  algorithm : String
  sign : List Char → List Byte
  encode_eq : ∀ c, (∀ n ∈ c.jti, n < 16 ^ 32) → encode c = jwtEncode algorithm sign c

/-! ### The pages' side -/

/-- `token.split('.')[1]` -/
def payloadPart (token : List Char) : Option (List Char) := (token.splitOn '.')[1]?

-- a string with a code unit for each byte
def binaryString (bs : List Byte) : String := String.ofList (bs.map fun b => Char.ofNat b.val)

/-- `null` when anything is thrown. -/
def decodeJwt (token : List Char) : Option Loaded := do
  let payload ← payloadPart token
  let bytes ← atob (fromUrl payload)
  loads (binaryString bytes)

/-- The payload on the pages that sign in, `none` when something is thrown. -/
def loginPayload (token : List Char) : Option Loaded := do
  let payload ← payloadPart token
  let bytes ← atob payload
  loads (binaryString bytes)

/-- Where `handleSubmit` and `handleCallback` send a role. -/
def landingPage (role : Option String) : String :=
  if role = some "super_admin" ∨ role = some "hotel_admin" then "/admin/dashboard"
  else if role = some "staff" then "/staff/bookings"
  else "/user/dashboard"

/-- `payload?.role` -/
def payloadRole (payload : Loaded) : Option String :=
  match payload.field "role" with
  | some (.str role) => some role
  | _ => none

/-! ### Reading a dict without blanks -/

theorem value_compact (v : Loaded) (n : ℕ) (rest : List Char)
    (hn : (text Empty.elim v).length < n) (h : Ends rest) :
    value n (text Empty.elim v ++ rest) = some (plain Empty.elim v, rest) :=
  reads Empty.elim v n rest hn h

theorem compactFields_start (k : String) (v : Loaded) (fs : List (String × Loaded)) :
    ∃ after, compactFields ((k, v) :: fs) = literal k ++ after := by
  cases fs with
  | nil => exact ⟨_, by rw [compactFields, List.append_assoc]⟩
  | cons g gs => exact ⟨_, by rw [compactFields, List.append_assoc]⟩

theorem fields_compact (f : String × Loaded) (fs : List (String × Loaded)) (n : ℕ)
    (rest : List Char) (hn : (compactFields (f :: fs)).length < n) :
    fields n (compactFields (f :: fs) ++ rest) =
      some (plainFields Empty.elim (f :: fs), rest) := by
  induction fs generalizing f n with
  | nil =>
    obtain ⟨k, v⟩ := f
    obtain ⟨n, rfl⟩ := Nat.exists_eq_add_one_of_ne_zero (Nat.ne_zero_of_lt hn)
    simp only [compactFields, List.length_append, List.length_cons, List.length_nil] at hn
    have hvalue := value_compact v n ('\x7d' :: rest) (by omega)
      (ends_cons rfl (by decide) (by decide) (by decide))
    rw [compactFields, List.append_assoc, List.append_assoc]
    rw [fields, readLiteral_literal]
    dsimp only [Option.bind_eq_bind, Option.bind_some]
    rw [List.cons_append, skip_cons rfl, expect_self]
    dsimp only [Option.bind_eq_bind, Option.bind_some]
    rw [skip_text, List.singleton_append, hvalue]
    dsimp only [Option.bind_eq_bind, Option.bind_some]
    rw [skip_cons rfl, expect_self]
    rfl
  | cons g gs ih =>
    obtain ⟨k, v⟩ := f
    obtain ⟨n, rfl⟩ := Nat.exists_eq_add_one_of_ne_zero (Nat.ne_zero_of_lt hn)
    obtain ⟨after, hafter⟩ := compactFields_start g.1 g.2 gs
    rw [compactFields, List.length_append, List.length_append, List.length_cons,
      List.length_cons] at hn
    have hvalue := value_compact v n (',' :: (compactFields (g :: gs) ++ rest)) (by omega)
      (ends_cons rfl (by decide) (by decide) (by decide))
    have htail := ih g n (by omega)
    rw [compactFields, List.append_assoc, List.append_assoc]
    rw [fields, readLiteral_literal]
    dsimp only [Option.bind_eq_bind, Option.bind_some]
    rw [List.cons_append, skip_cons rfl, expect_self]
    dsimp only [Option.bind_eq_bind, Option.bind_some]
    rw [skip_text, List.cons_append, hvalue]
    dsimp only [Option.bind_eq_bind, Option.bind_some]
    rw [skip_cons rfl, expect_of_ne (by decide), expect_self]
    dsimp only [Option.bind_eq_bind, Option.bind_some]
    rw [hafter, List.append_assoc, skip_literal, ← List.append_assoc, ← hafter, htail]
    rfl

/-- A loaded value has no leaves to turn into text. -/
theorem plainFields_loaded (fs : List (String × Loaded)) : plainFields Empty.elim fs = fs := by
  have hplain : ∀ v : Loaded, plain Empty.elim v = v := by
    intro v
    refine @Value.rec Empty (fun v => plain Empty.elim v = v)
      (fun vs => plainItems Empty.elim vs = vs) (fun fs => plainFields Empty.elim fs = fs)
      (fun f => plain Empty.elim f.2 = f.2) ?null ?bool ?int ?str ?other ?list ?dict ?nil ?cons
      ?fnil ?fcons ?mk v
    case null => rfl
    case bool => exact fun b => rfl
    case int => exact fun i => rfl
    case str => exact fun s => rfl
    case other => exact fun a => a.elim
    case list => exact fun vs ih => congrArg Value.list ih
    case dict => exact fun fs ih => congrArg Value.dict ih
    case nil => rfl
    case cons => exact fun v vs hv hvs => by rw [plainItems, hv, hvs]
    case fnil => rfl
    case fcons => exact fun f fs hf hfs => by rw [plainFields, hf, hfs]
    case mk => exact fun k v hv => hv
  induction fs with
  | nil => rfl
  | cons f fs ih => rw [plainFields, hplain, ih]

theorem loads_compactText (f : String × Loaded) (fs : List (String × Loaded)) :
    loads (String.ofList (compactText (f :: fs))) = some (.dict (f :: fs)) := by
  obtain ⟨after, hafter⟩ := compactFields_start f.1 f.2 fs
  have hfields := fields_compact f fs ((compactText (f :: fs)).length) [] (by
    rw [compactText, List.length_cons]
    exact Nat.lt_succ_self _)
  rw [List.append_nil, plainFields_loaded] at hfields
  have hskip : skip (compactFields (f :: fs)) = compactFields (f :: fs) := by
    rw [hafter, skip_literal]
  have hnotend : expect '}' (compactFields (f :: fs)) = none := by
    rw [hafter]
    exact expect_of_ne (by decide)
  have hvalue : value ((compactText (f :: fs)).length + 1) (compactText (f :: fs)) =
      some (.dict (f :: fs), []) := by
    rw [compactText, value, if_neg (by decide), if_neg (by decide), if_pos rfl, hskip, hnotend]
    dsimp only
    rw [← compactText, hfields, Option.map_some]
  rw [loads, String.toList_ofList, compactText, skip_cons rfl, ← compactText, hvalue]
  rfl

/-! ### The text of a payload -/

/-- ASCII whose encoding has none of the two letters that differ. -/
def SafeText (cs : List Char) : Prop := ∀ c ∈ cs, c.toNat < 128 ∧ c.toNat % 64 < 62

instance (cs : List Char) : Decidable (SafeText cs) := List.decidableBAll _ cs

theorem SafeText.append {cs cs' : List Char} (h : SafeText cs) (h' : SafeText cs') :
    SafeText (cs ++ cs') := by
  intro c hc
  rcases List.mem_append.mp hc with hc | hc
  · exact h c hc
  · exact h' c hc

theorem SafeText.cons {c : Char} {cs : List Char} (hc : c.toNat < 128 ∧ c.toNat % 64 < 62)
    (h : SafeText cs) : SafeText (c :: cs) := by
  intro x hx
  rcases List.mem_cons.mp hx with rfl | hx
  · exact hc
  · exact h x hx

theorem safeText_intText (i : ℤ) : SafeText (intText i) := by
  have hdigits : ∀ n, SafeText (natText n) := by
    intro n c hc
    have hdigit := isDigit_natText hc
    simp only [Char.isDigit, Bool.and_eq_true, decide_eq_true_eq] at hdigit
    have hlow : 48 ≤ c.toNat := hdigit.1
    have hhigh : c.toNat ≤ 57 := hdigit.2
    omega
  unfold intText
  split
  · exact (hdigits _).cons (by decide)
  · exact hdigits _

/-- A string that is written as it is. -/
theorem safeText_literal {cs : List Char} (hplain : ∀ c ∈ cs, isPlain c = true)
    (h : SafeText cs) : SafeText (literal (String.ofList cs)) := by
  have hcontents : contents cs = cs := by
    rw [contents]
    induction cs with
    | nil => rfl
    | cons c cs ih =>
      have htail := ih (fun x hx => hplain x (List.mem_cons_of_mem _ hx))
        fun x hx => h x (List.mem_cons_of_mem _ hx)
      rw [List.flatMap_cons, htail, character, if_pos (hplain c (List.mem_cons_self ..))]
      rfl
  rw [literal, String.toList_ofList, hcontents]
  exact (SafeText.append (h.cons (by decide)) (by decide))

theorem safeText_uuidHex (n : ℕ) : SafeText (literal (uuidHex n)) := by
  have hdigit : ∀ d < 16, isPlain (hexDigit d) = true ∧ (hexDigit d).toNat < 128 ∧
      (hexDigit d).toNat % 64 < 62 := by decide
  have hall : ∀ c ∈ (List.range 32).map fun i => hexDigit (n / 16 ^ (31 - i) % 16),
      isPlain c = true ∧ c.toNat < 128 ∧ c.toNat % 64 < 62 := by
    intro c hc
    obtain ⟨i, -, rfl⟩ := List.mem_map.mp hc
    exact hdigit _ (Nat.mod_lt _ (by decide))
  exact safeText_literal (fun c hc => (hall c hc).1) fun c hc => (hall c hc).2

theorem safeText_compactFields {fs : List (String × Loaded)}
    (h : ∀ f ∈ fs, SafeText (literal f.1) ∧ SafeText (text Empty.elim f.2)) :
    SafeText (compactFields fs) := by
  induction fs with
  | nil => exact (by decide : SafeText ['}'])
  | cons f fs ih =>
    obtain ⟨k, v⟩ := f
    obtain ⟨hk, hv⟩ := h (k, v) (List.mem_cons_self ..)
    have htail := ih fun g hg => h g (List.mem_cons_of_mem _ hg)
    have hhead := SafeText.append hk (hv.cons (c := ':') (by decide))
    cases fs with
    | nil =>
      rw [compactFields]
      exact hhead.append (by decide)
    | cons g gs =>
      rw [compactFields]
      exact hhead.append (htail.cons (by decide))

theorem safeText_payload (c : Claims) : SafeText (compactText c.payload) := by
  have hkeys : ∀ k ∈ ["user_id", "role", "hotel_id", "type", "jti", "exp"],
      SafeText (literal k) := by decide +kernel
  refine (safeText_compactFields ?_).cons (by decide)
  intro f hf
  simp only [Claims.payload, List.mem_append, List.mem_cons, List.not_mem_nil, or_false,
    List.mem_map] at hf
  rcases hf with ((rfl | rfl | rfl | rfl) | ⟨n, -, rfl⟩) | rfl
  · exact ⟨hkeys _ (by simp), safeText_intText _⟩
  · refine ⟨hkeys _ (by simp), ?_⟩
    cases c.role <;> decide +kernel
  · refine ⟨hkeys _ (by simp), ?_⟩
    cases c.hotelId with
    | none => exact (by decide : SafeText nullText)
    | some h => exact safeText_intText h
  · refine ⟨hkeys _ (by simp), ?_⟩
    cases c.type <;> decide +kernel
  · exact ⟨hkeys _ (by simp), safeText_uuidHex n⟩
  · exact ⟨hkeys _ (by simp), safeText_intText _⟩

theorem asciiByte_val {c : Char} (h : c.toNat < 128) : (asciiByte c).val = c.toNat :=
  Nat.mod_eq_of_lt (by omega)

theorem binaryString_asciiBytes {cs : List Char} (h : SafeText cs) :
    binaryString (asciiBytes cs) = String.ofList cs := by
  rw [binaryString, asciiBytes, List.map_map]
  refine congrArg String.ofList ?_
  conv_rhs => rw [← List.map_id cs]
  refine List.map_congr_left fun c hc => ?_
  rw [Function.comp_apply, asciiByte_val (h c hc).1, Char.ofNat_toNat, id]

theorem safe_asciiBytes {cs : List Char} (h : SafeText cs) : ∀ b ∈ asciiBytes cs, Safe b := by
  intro b hb
  obtain ⟨c, hc, rfl⟩ := List.mem_map.mp hb
  rw [Safe, asciiByte_val (h c hc).1]
  exact h c hc

/-! ### Both readers -/

theorem dot_not_mem_urlEncode (bs : List Byte) : '.' ∉ urlEncode bs := by
  intro h
  obtain ⟨s, -, hs⟩ := List.mem_map.mp h
  exact letter_ne_dot s hs

theorem payloadPart_jwtEncode (algorithm : String) (sign : List Char → List Byte) (c : Claims) :
    payloadPart (jwtEncode algorithm sign c) =
      some (urlEncode (asciiBytes (compactText c.payload))) := by
  rw [payloadPart, jwtEncode, List.append_assoc, List.cons_append,
    List.splitOn_append_cons_self_of_not_mem (dot_not_mem_urlEncode _),
    List.splitOn_append_cons_self_of_not_mem (dot_not_mem_urlEncode _)]
  rfl

theorem loads_asciiBytes (c : Claims) :
    loads (binaryString (asciiBytes (compactText c.payload))) = some (.dict c.payload) := by
  rw [binaryString_asciiBytes (safeText_payload c)]
  exact loads_compactText _ _

theorem decodeJwt_jwtEncode (algorithm : String) (sign : List Char → List Byte) (c : Claims) :
    decodeJwt (jwtEncode algorithm sign c) = some (.dict c.payload) := by
  rw [decodeJwt, payloadPart_jwtEncode, Option.bind_eq_bind, Option.bind_some,
    Option.bind_eq_bind, atob_fromUrl, Option.bind_some, loads_asciiBytes]

theorem loginPayload_jwtEncode (algorithm : String) (sign : List Char → List Byte) (c : Claims) :
    loginPayload (jwtEncode algorithm sign c) = some (.dict c.payload) := by
  rw [loginPayload, payloadPart_jwtEncode]
  dsimp only [Option.bind_eq_bind, Option.bind_some]
  rw [atob_urlEncode_of_safe (safe_asciiBytes (safeText_payload c)), Option.bind_some,
    loads_asciiBytes]

/-- What the backend signs is what the pages read. -/
theorem pages_read_tokens (jose : CompactJose) (settings : TokenSettings) (data : TokenPayload)
    {jti : ℕ} (hjti : jti < 16 ^ 32) (now : ℚ) (token : List Char) (c : Claims)
    (htoken : (token, c) ∈
      [(createAccessToken jose.toJose settings data jti now, accessClaims settings data jti now),
        (createRefreshToken jose.toJose settings data jti now,
          refreshClaims settings data jti now)]) :
    decodeJwt token = some (.dict c.payload) ∧ loginPayload token = some (.dict c.payload) := by
  have hread : ∀ c : Claims, c.jti = some jti →
      decodeJwt (jose.encode c) = some (.dict c.payload) ∧
        loginPayload (jose.encode c) = some (.dict c.payload) := by
    intro c hc
    have hdigits : ∀ n ∈ c.jti, n < 16 ^ 32 := by
      intro n hn
      rw [hc] at hn
      exact Option.some.inj hn ▸ hjti
    rw [jose.encode_eq c hdigits]
    exact ⟨decodeJwt_jwtEncode _ _ c, loginPayload_jwtEncode _ _ c⟩
  rcases List.mem_pair.mp htoken with h | h
  · obtain ⟨rfl, rfl⟩ := Prod.mk.inj h
    exact hread _ rfl
  · obtain ⟨rfl, rfl⟩ := Prod.mk.inj h
    exact hread _ rfl

theorem role_payload (c : Claims) :
    (Value.dict c.payload).field "role" = some (.str c.role.value) := by
  cases hj : c.jti with
  | none => simp [Value.field, Claims.payload, hj, List.lookup_cons]
  | some n => simp [Value.field, Claims.payload, hj, List.lookup_cons]

/-- Whatever the algorithm and the key: both decoders read from a token the
claims it was made with, and the page that opens is the one of the user's role. -/
theorem pages_read_claims (algorithm : String) (sign : List Char → List Byte) (c : Claims) :
    decodeJwt (jwtEncode algorithm sign c) = some (.dict c.payload) ∧
    loginPayload (jwtEncode algorithm sign c) = some (.dict c.payload) ∧
    landingPage (payloadRole (.dict c.payload)) =
      match c.role with
      | .superAdmin | .hotelAdmin => "/admin/dashboard"
      | .staff => "/staff/bookings"
      | .guest => "/user/dashboard" := by
  refine ⟨decodeJwt_jwtEncode algorithm sign c, loginPayload_jwtEncode algorithm sign c, ?_⟩
  rw [payloadRole, role_payload]
  cases c.role <;> decide +kernel

end HotelMs
