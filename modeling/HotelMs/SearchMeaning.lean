import HotelMs.HotelPaging
import HotelMs.Lib.Like

/-!
# What a text search means (`search_hotels_endpoint` without hits)

Of several parts each is trimmed and looked for; a single one is looked for as it
was typed, with its blanks and commas.
-/

namespace HotelMs

open Tables PyText Like

def isSeparator (c : Char) : Bool := isSpace c || c == ','

/-- How the database folds the case of letters for `ILIKE`. -/
structure CaseFold where
  fold : Char → Char
  idempotent : ∀ c, fold (fold c) = fold c
  separator : ∀ c, isSeparator (fold c) = isSeparator c

def CaseFold.ilike (F : CaseFold) (text pattern : String) : Bool :=
  Like.ilike F.fold text.toList pattern.toList

/-- Without hits and other filters a hotel is found if each part is mentioned. -/
def SearchMeans (F : CaseFold) (q : String) : Prop :=
  ∀ index : String → Option String → List ℤ, searchHotels index q none = [] → ∀ h : Hotel,
    (⟨q, none, none, none, none⟩ : SearchQuery).admits F.ilike (searchHotels index q none) h =
      (searchParts q).all (mentions F.ilike h)

/-! ### Separators -/

def sepCount (cs : List Char) : ℕ := cs.countP isSeparator

theorem sepCount_append (cs ds : List Char) : sepCount (cs ++ ds) = sepCount cs + sepCount ds :=
  List.countP_append

theorem sepCount_of_spaces {cs : List Char} (h : ∀ c ∈ cs, isSpace c = true) :
    sepCount cs = cs.length := by
  refine List.countP_eq_length.mpr fun c hc => ?_
  unfold isSeparator
  rw [h c hc]
  rfl

theorem stripChars_append (cs : List Char) : ∃ left right, cs = left ++ stripChars cs ++ right ∧
    (∀ c ∈ left, isSpace c = true) ∧ ∀ c ∈ right, isSpace c = true := by
  have hleft := List.takeWhile_append_dropWhile (p := isSpace) (l := cs)
  have hright :=
    List.takeWhile_append_dropWhile (p := isSpace) (l := (cs.dropWhile isSpace).reverse)
  refine ⟨cs.takeWhile isSpace, ((cs.dropWhile isSpace).reverse.takeWhile isSpace).reverse,
    ?_, fun c hc => List.mem_takeWhile_imp hc,
    fun c hc => List.mem_takeWhile_imp (List.mem_reverse.mp hc)⟩
  have hback : stripChars cs ++ ((cs.dropWhile isSpace).reverse.takeWhile isSpace).reverse =
      cs.dropWhile isSpace := by
    unfold stripChars
    rw [← List.reverse_append, hright, List.reverse_reverse]
  rw [List.append_assoc, hback, hleft]

theorem sepCount_stripChars (cs : List Char) :
    sepCount cs + (stripChars cs).length = sepCount (stripChars cs) + cs.length := by
  obtain ⟨left, right, hcs, hleft, hright⟩ := stripChars_append cs
  have hcount := congrArg sepCount hcs
  have hlength := congrArg List.length hcs
  rw [sepCount_append, sepCount_append, sepCount_of_spaces hleft,
    sepCount_of_spaces hright] at hcount
  rw [List.length_append, List.length_append] at hlength
  omega

theorem stripChars_length_le (cs : List Char) : (stripChars cs).length ≤ cs.length := by
  obtain ⟨left, right, hcs, _, _⟩ := stripChars_append cs
  have hlength := congrArg List.length hcs
  rw [List.length_append, List.length_append] at hlength
  omega

theorem stripChars_eq_self {cs : List Char} (h : (stripChars cs).length = cs.length) :
    stripChars cs = cs := by
  obtain ⟨left, right, hcs, _, _⟩ := stripChars_append cs
  have hlength := congrArg List.length hcs
  rw [List.length_append, List.length_append] at hlength
  have hnoleft : left = [] := List.eq_nil_of_length_eq_zero (by omega)
  have hnoright : right = [] := List.eq_nil_of_length_eq_zero (by omega)
  rw [hnoleft, hnoright, List.nil_append, List.append_nil] at hcs
  exact hcs.symm

theorem sepCount_stripChars_le (cs : List Char) : sepCount (stripChars cs) ≤ sepCount cs := by
  have hcount := sepCount_stripChars cs
  have hlength := stripChars_length_le cs
  omega

/-! ### Parts -/

def stripped (pieces : List (List Char)) : List (List Char) :=
  (pieces.map stripChars).filter (· ≠ [])

def sepTotal (pieces : List (List Char)) : ℕ := (pieces.map sepCount).sum

theorem sepTotal_stripped_le (pieces : List (List Char)) :
    sepTotal (stripped pieces) ≤ sepTotal pieces := by
  induction pieces with
  | nil => exact Nat.le_refl _
  | cons piece pieces ih =>
    have hpiece := sepCount_stripChars_le piece
    unfold stripped sepTotal at ih ⊢
    rw [List.map_cons, List.filter_cons, List.map_cons, List.sum_cons]
    split
    · rw [List.map_cons, List.sum_cons]
      omega
    · omega

theorem sepCount_cons (c : Char) (cs : List Char) :
    sepCount (c :: cs) = sepCount cs + if isSeparator c then 1 else 0 := List.countP_cons

theorem sepTotal_cons (piece : List Char) (pieces : List (List Char)) :
    sepTotal (piece :: pieces) = sepCount piece + sepTotal pieces := rfl

theorem sepCount_splitOn (cs : List Char) :
    sepCount cs = sepTotal (cs.splitOn ',') + cs.count ',' := by
  induction cs with
  | nil => rfl
  | cons c cs ih =>
    obtain ⟨piece, pieces, hpieces⟩ := List.exists_cons_of_ne_nil (List.splitOn_ne_nil ',' cs)
    rw [List.splitOn_cons_eq_if_modifyHead, sepCount_cons, List.count_cons]
    rw [hpieces] at ih ⊢
    by_cases hcomma : c = ','
    · rw [hcomma]
      have hsep : isSeparator ',' = true := by decide
      have hnil : sepCount [] = 0 := rfl
      rw [beq_self_eq_true, if_pos rfl, if_pos rfl, hsep, if_pos rfl, sepTotal_cons, hnil]
      omega
    · have hbeq : (c == ',') = false := beq_eq_false_iff_ne.mpr hcomma
      rw [hbeq, if_neg Bool.false_ne_true, if_neg Bool.false_ne_true, List.modifyHead_cons,
        sepTotal_cons, sepCount_cons]
      rw [sepTotal_cons] at ih
      omega

theorem sepTotal_lt {q : List Char} (hq : q ≠ []) (hne : stripped (q.splitOn ',') ≠ [q]) :
    sepTotal (stripped (q.splitOn ',')) < sepCount q := by
  by_cases hcomma : ',' ∈ q
  · have hpos := List.count_pos_iff.mpr hcomma
    have hle := sepTotal_stripped_le (q.splitOn ',')
    have hsplit := sepCount_splitOn q
    omega
  · rw [List.splitOn_eq_singleton hcomma] at hne ⊢
    have hcount := sepCount_stripChars q
    have hlength := stripChars_length_le q
    have hpos := List.length_pos_iff.mpr hq
    by_cases hempty : stripChars q = []
    · have hnone : stripped [q] = [] := by
        unfold stripped
        rw [List.map_singleton, hempty]
        rfl
      have hnil : sepCount [] = 0 := rfl
      have htotal : sepTotal [] = 0 := rfl
      rw [hempty, List.length_nil, hnil] at hcount
      rw [hnone, htotal]
      omega
    · have hone : stripped [q] = [stripChars q] := by
        unfold stripped
        rw [List.map_singleton]
        exact List.filter_eq_self.mpr fun p hp => by
          rw [List.mem_singleton.mp hp]
          exact decide_eq_true hempty
      have htotal : sepTotal [stripChars q] = sepCount (stripChars q) := Nat.add_zero _
      have hshorter : (stripChars q).length ≠ q.length := fun hsame =>
        hne (hone.trans (congrArg (fun cs => [cs]) (stripChars_eq_self hsame)))
      rw [hone, htotal]
      omega

/-! ### The meaning of a search -/

theorem searchParts_eq (q : String) :
    searchParts q = (stripped (q.toList.splitOn ',')).map String.ofList := by
  have hsame : ∀ cs : List Char, decide (String.ofList cs ≠ "") = decide (cs ≠ []) := fun cs =>
    decide_eq_decide.mpr (not_congr String.ofList_eq_empty_iff)
  unfold searchParts stripped
  rw [List.filter_map, List.filter_map, List.map_map]
  exact congrArg _ (List.filter_congr fun cs _ => hsame (stripChars cs))

theorem searchParts_eq_singleton {q p : String} (h : searchParts q = [p]) :
    stripped (q.toList.splitOn ',') = [p.toList] := by
  rw [searchParts_eq] at h
  obtain ⟨cs, hcs, hp⟩ := List.map_eq_singleton_iff.mp h
  rw [hcs, ← hp, String.toList_ofList]

theorem sepTotal_parts_lt {q : String} (hq : q ≠ "") (hne : searchParts q ≠ [q]) :
    sepTotal (stripped (q.toList.splitOn ',')) < sepCount q.toList := by
  refine sepTotal_lt (fun hnil => hq (String.toList_eq_nil_iff.mp hnil)) fun hsame => hne ?_
  rw [searchParts_eq, hsame, List.map_singleton, String.ofList_toList]

section

variable (F : CaseFold)

theorem sepCount_map_fold (cs : List Char) : sepCount (cs.map F.fold) = sepCount cs := by
  unfold sepCount
  rw [List.countP_map]
  exact congrArg (fun p => cs.countP p) (funext F.separator)

theorem literals_pattern (cs : List Char) :
    literals isSeparator (Like.tokens (cs.map F.fold)) = sepCount cs :=
  (literals_tokens (by decide) (by decide) (by decide) _).trans (sepCount_map_fold F cs)

/-- A text has the separators of what it is found by. -/
theorem sepCount_le_of_ilike {text part : String}
    (h : F.ilike text ("%" ++ part ++ "%") = true) :
    sepCount part.toList ≤ sepCount text.toList := by
  have hle := literals_le_of_fits (p := isSeparator) h
  have hwrapped : sepCount ("%" ++ part ++ "%").toList = sepCount part.toList := by
    rw [String.toList_append, String.toList_append, sepCount_append, sepCount_append]
    exact Nat.zero_add _
  have htext : (text.toList.map F.fold).countP isSeparator = sepCount text.toList :=
    sepCount_map_fold F text.toList
  rw [literals_pattern, hwrapped, htext] at hle
  exact hle

/-- A text found by a part, with no separator that the part has not. -/
theorem exists_text (part : String) : ∃ text : String,
    F.ilike text ("%" ++ part ++ "%") = true ∧
      sepCount text.toList = sepCount part.toList := by
  let pattern := ("%" ++ part ++ "%").toList.map F.fold
  let text := sample (F.fold 'x') (Like.tokens pattern)
  have hfolded : ∀ c ∈ pattern, F.fold c = c := by
    intro c hc
    obtain ⟨d, _, hd⟩ := List.mem_map.mp hc
    rw [← hd, F.idempotent]
  have hmap : text.map F.fold = text := map_sample_tokens (F.idempotent 'x') hfolded
  have hfiller : isSeparator (F.fold 'x') = false := F.separator 'x'
  refine ⟨String.ofList text, ?_, ?_⟩
  · show fits (Like.tokens pattern) ((String.ofList text).toList.map F.fold) = true
    rw [String.toList_ofList, hmap]
    exact fits_sample _ _
  · have hcount : sepCount text = literals isSeparator (Like.tokens pattern) :=
      countP_sample hfiller (Like.tokens pattern)
    rw [String.toList_ofList, hcount, literals_pattern]
    rw [String.toList_append, String.toList_append, sepCount_append, sepCount_append]
    exact Nat.zero_add _

def hotelNamed (text : String) : Hotel :=
  ⟨1, text, none, none, none, none, none, none, none, none, none, 0, 0⟩

theorem mentions_hotelNamed (ilike : String → String → Bool) (text part : String) :
    mentions ilike (hotelNamed text) part = ilike text ("%" ++ part ++ "%") := by
  show (ilike text ("%" ++ part ++ "%") || false) = _
  exact Bool.or_false _

/-- A hotel that every part mentions and the query as typed does not. -/
theorem exists_missed {q : String} (hq : q ≠ "") (hfew : (searchParts q).length ≤ 1)
    (hne : searchParts q ≠ [q]) : ∃ h : Hotel,
      (searchParts q).all (mentions F.ilike h) = true ∧ mentions F.ilike h q = false := by
  have hlt := sepTotal_parts_lt hq hne
  have hsome : ∃ text : String, (searchParts q).all (mentions F.ilike (hotelNamed text)) = true ∧
      sepCount text.toList = sepTotal (stripped (q.toList.splitOn ',')) := by
    cases hparts : searchParts q with
    | nil =>
      have hnone : stripped (q.toList.splitOn ',') = [] := by
        rw [searchParts_eq] at hparts
        exact List.map_eq_nil_iff.mp hparts
      refine ⟨"x", rfl, ?_⟩
      rw [hnone]
      decide
    | cons part rest =>
      rw [hparts, List.length_cons] at hfew
      obtain rfl : rest = [] := List.eq_nil_of_length_eq_zero (by omega)
      obtain ⟨text, hfound, hcount⟩ := exists_text F part
      refine ⟨text, ?_, ?_⟩
      · rw [List.all_cons, List.all_nil, Bool.and_true, mentions_hotelNamed]
        exact hfound
      · rw [searchParts_eq_singleton hparts, hcount]
        exact (Nat.add_zero _).symm
  obtain ⟨text, hall, hcount⟩ := hsome
  refine ⟨hotelNamed text, hall, ?_⟩
  rw [mentions_hotelNamed, ← Bool.not_eq_true]
  intro hfound
  have hle := sepCount_le_of_ilike F hfound
  omega

theorem admits_no_hits (ilike : String → String → Bool) (q : String) (h : Hotel) :
    (⟨q, none, none, none, none⟩ : SearchQuery).admits ilike [] h = fallback ilike q h := by
  show (fallback ilike q h && true && true) = _
  rw [Bool.and_true, Bool.and_true]

/-- The only part is the query itself. -/
theorem searchParts_eq_self_iff {q : String} (hq : q ≠ "") :
    searchParts q = [q] ↔ ',' ∉ q.toList ∧ strip q = q := by
  constructor
  · intro hself
    have hparts := searchParts_eq_singleton hself
    have hcomma : ',' ∉ q.toList := by
      intro hmem
      have hpos := List.count_pos_iff.mpr hmem
      have hle := sepTotal_stripped_le (q.toList.splitOn ',')
      have hsplit := sepCount_splitOn q.toList
      have htotal : sepTotal [q.toList] = sepCount q.toList := Nat.add_zero _
      rw [hparts, htotal] at hle
      omega
    refine ⟨hcomma, ?_⟩
    rw [searchParts, List.splitOn_eq_singleton hcomma, List.map_singleton] at hself
    have hmem : q ∈ [strip q] := List.mem_of_mem_filter (hself ▸ List.mem_singleton_self q)
    exact (List.mem_singleton.mp hmem).symm
  · rintro ⟨hcomma, hstrip⟩
    rw [searchParts, List.splitOn_eq_singleton hcomma, List.map_singleton]
    have hsame : String.ofList (stripChars q.toList) = q := hstrip
    rw [hsame]
    exact List.filter_eq_self.mpr fun p hp => by
      rw [List.mem_singleton.mp hp]
      exact decide_eq_true hq

theorem search_means_iff (q : String) (hq : q ≠ "") :
    SearchMeans F q ↔ 1 < (searchParts q).length ∨ ',' ∉ q.toList ∧ strip q = q := by
  rw [← searchParts_eq_self_iff hq]
  constructor
  · intro hmeans
    by_contra hneither
    obtain ⟨hfew, hne⟩ := not_or.mp hneither
    obtain ⟨h, hall, hmissed⟩ := exists_missed F hq (Nat.not_lt.mp hfew) hne
    have hcode := hmeans (fun _ _ => []) rfl h
    have hhits : searchHotels (fun _ _ => []) q none = [] := rfl
    rw [hhits, admits_no_hits, hall, fallback, if_neg hfew, hmissed] at hcode
    exact Bool.false_ne_true hcode
  · intro hparts index hhits h
    rw [hhits, admits_no_hits, fallback]
    rcases hparts with hmany | hone
    · rw [if_pos hmany]
    · have hfew : ¬1 < (searchParts q).length := by
        rw [hone]
        exact Nat.lt_irrefl 1
      rw [if_neg hfew, hone, List.all_cons, List.all_nil, Bool.and_true]

end

/-! ### The case of ASCII letters -/

def asciiFold : CaseFold where
  fold := Char.toLower
  idempotent := toLower_toLower
  separator := by
    intro c
    have hcomma : (c.toLower == ',') = (c == ',') := by
      rw [Bool.eq_iff_iff, beq_iff_eq, beq_iff_eq, ← Char.toNat_inj, ← Char.toNat_inj,
        toLower_toNat]
      have hnat : ','.toNat = 44 := rfl
      split <;> omega
    unfold isSeparator
    rw [isSpace_toLower, hcomma]

theorem search_means_parts :
    SearchMeans asciiFold "Paris, , France " ∧ "Paris, , France " ≠ "" ∧
      searchParts "Paris, , France " = ["Paris", "France"] := by
  have hparts : searchParts "Paris, , France " = ["Paris", "France"] := by decide
  refine ⟨(search_means_iff asciiFold _ (by decide)).mpr (.inl ?_), by decide, hparts⟩
  rw [hparts]
  decide

/-- A blank before the only part: a hotel of that name is not found. -/
theorem search_misses_trimmed : ¬SearchMeans asciiFold " Paris" := by
  intro h
  have hcode := h (fun _ _ => []) rfl (hotelNamed "Paris")
  have hmissed : (⟨" Paris", none, none, none, none⟩ : SearchQuery).admits asciiFold.ilike
      (searchHotels (fun _ _ => []) " Paris" none) (hotelNamed "Paris") = false := by decide
  have hmeant : (searchParts " Paris").all
      (mentions asciiFold.ilike (hotelNamed "Paris")) = true := by
    decide
  rw [hmissed, hmeant] at hcode
  exact Bool.false_ne_true hcode

end HotelMs
