import HotelMs.AvatarStorage
import HotelMs.Lib.Runs

/-!
# Moving images into the store

`scripts/migrate_hotel_images_to_minio.py` with `upload_image` of
`services/storage.py`. Objects stay when a run fails, the rows only change with
its commit. The text `sha1(url).hexdigest()` is a parameter.
-/

namespace HotelMs

open Runs

structure ImageRow where
  id : ℤ
  imageUrl : Option Text
  deriving DecidableEq

/-- `row.image_url or ""` -/
def ImageRow.url (row : ImageRow) : Text := row.imageUrl.getD []

variable {β : Type}

structure StoredImage (β : Type) where
  body : β
  contentType : Text

/-- The objects of the server, by what a URL has behind its host. -/
abbrev Objects (β : Type) := Text → Option (StoredImage β)

/-! ### URLs and names -/

def staleMinioPrefixes : List Text := ["http://localhost:9000".toList, "http://minio:9000".toList]

def contentTypes : List (Text × Text) :=
  [("jpg", "image/jpeg"), ("jpeg", "image/jpeg"), ("png", "image/png"), ("webp", "image/webp"),
    ("gif", "image/gif")].map fun e => (e.1.toList, e.2.toList)

theorem dotPieces_ne_nil (url : Text) : url.splitOn '.' ≠ [] := List.splitOn_ne_nil '.' url

/-- `url.rsplit(".", 1)[-1].lower().split("?")[0]`; no other letter is made one of
the table's by `lower`. -/
def urlExt (url : Text) : Text :=
  let ext := ((url.splitOn '.').getLast (dotPieces_ne_nil url)).map Char.toLower
  (ext.splitOn '?').headD []

def contentTypeFromUrl (url : Text) : Text :=
  (contentTypes.lookup (urlExt url)).getD "image/jpeg".toList

def fileExt (url : Text) : Text :=
  if (contentTypes.lookup (urlExt url)).isSome then urlExt url else "jpg".toList

/-- A digest of forty hexadecimal digits. -/
structure Sha1 where
  hexdigest : Text → Text
  length : ∀ text, (hexdigest text).length = 40

section

variable (settings : StorageSettings) (sha : Sha1)

def imageName (url : Text) : Text := (sha.hexdigest url).take 16 ++ '.' :: fileExt url

def objectPath (key : Text) : Text := '/' :: (settings.bucket ++ '/' :: key)

def imageKey (kind name : Text) : Text := kind ++ '/' :: name

def rewriteStaleUrl (oldUrl : Text) : Option Text :=
  (staleMinioPrefixes.find? fun p => p.isPrefixOf oldUrl).map fun p =>
    settings.publicUrl ++ oldUrl.drop p.length

/-- `lstrip("/").split("/", 1)` and its second part. -/
def keyInPath (path : Text) : Option Text :=
  let trimmed := path.dropWhile (· = '/')
  if '/' ∈ trimmed then some (trimmed.dropWhile (· ≠ '/')).tail else none

/-! ### One run -/

inductive Fetch
  | answered
  | failed
  | raised

/-- An upload may be stored and still raise. -/
inductive Upload
  | stored
  | refused
  | unanswered

/-- How the outside treats one row. -/
structure Luck where
  head : Bool
  fetch : Fetch
  upload : Upload

inductive RowOutcome
  | skipped
  | migrated (newUrl : Text)
  | error

def RowOutcome.apply (row : ImageRow) : RowOutcome → ImageRow
  | .migrated newUrl => { row with imageUrl := some newUrl }
  | _ => row

/-- The counters of a table. -/
structure Tally where
  migrated : ℕ
  skipped : ℕ
  errors : ℕ
  deriving DecidableEq

def Tally.zero : Tally := ⟨0, 0, 0⟩

def Tally.count (t : Tally) : RowOutcome → Tally
  | .skipped => { t with skipped := t.skipped + 1 }
  | .migrated _ => { t with migrated := t.migrated + 1 }
  | .error => { t with errors := t.errors + 1 }

def Tally.add (t t' : Tally) : Tally :=
  ⟨t.migrated + t'.migrated, t.skipped + t'.skipped, t.errors + t'.errors⟩

-- what the web has at a URL, the same at every time it answers
variable (web : Text → Option β)

def isHttp (url : Text) : Bool :=
  "http://".toList.isPrefixOf url || "https://".toList.isPrefixOf url

def uploadImage (objects : Objects β) (kind name : Text) (data : β) (contentType : Text) :
    Text × Objects β :=
  let path := objectPath settings (imageKey kind name)
  (settings.publicUrl ++ path, Function.update objects path (some ⟨data, contentType⟩))

/-- The body of the loop of `migrate_table`; `none` is an exception nothing catches. -/
def migrateRow (kind : Text) (luck : Luck) (objects : Objects β) (url : Text) :
    Option (RowOutcome × Objects β) :=
  if url = [] then some (.skipped, objects)
  else if settings.publicUrl.isPrefixOf url then some (.skipped, objects)
  else match rewriteStaleUrl settings url with
  | some newUrl =>
    match keyInPath (newUrl.drop settings.publicUrl.length) with
    | some key =>
      if key ≠ [] ∧ luck.head ∧ (objects (objectPath settings key)).isSome then
        some (.migrated newUrl, objects)
      else some (.error, objects)
    | none => some (.error, objects)
  | none =>
    if isHttp url then
      match luck.fetch, web url with
      | .raised, _ => none
      | .answered, some data =>
        let r := uploadImage settings objects kind (imageName sha url) data (contentTypeFromUrl url)
        match luck.upload with
        | .stored => some (.migrated r.1, r.2)
        | .refused => some (.error, objects)
        | .unanswered => some (.error, r.2)
      | _, _ => some (.error, objects)
    else some (.skipped, objects)

def migrateTable (kind : Text) (luck : ℤ → Luck) (tally : Tally) :
    List ImageRow → Objects β → Option (List ImageRow × Tally) × Objects β
  | [], objects => (some ([], tally), objects)
  | row :: rows, objects =>
    match migrateRow settings sha web kind (luck row.id) objects row.url with
    | none => (none, objects)
    | some (outcome, objects) =>
      match migrateTable kind luck (tally.count outcome) rows objects with
      | (none, objects) => (none, objects)
      | (some (done, tally), objects) =>
        (some (outcome.apply row :: done, tally), objects)

structure ImageWorld (β : Type) where
  hotelImages : List ImageRow
  roomImages : List ImageRow
  objects : Objects β

structure MigrationRun where
  hotels : ℤ → Luck
  rooms : ℤ → Luck
  commits : Bool

def hotelsKind : Text := "hotels".toList

def roomsKind : Text := "rooms".toList

/-- `main`: the tally of a run that was committed, the world it leaves in any case. -/
def migrate (w : ImageWorld β) (r : MigrationRun) : Option Tally × ImageWorld β :=
  match migrateTable settings sha web hotelsKind r.hotels .zero w.hotelImages w.objects with
  | (none, objects) => (none, { w with objects })
  | (some (hotels, t), objects) =>
    match migrateTable settings sha web roomsKind r.rooms .zero w.roomImages objects with
    | (none, objects) => (none, { w with objects })
    | (some (rooms, t'), objects) =>
      if r.commits then (some (t.add t'), ⟨hotels, rooms, objects⟩) else (none, { w with objects })

def migrationStep (w : ImageWorld β) (r : MigrationRun) : ImageWorld β :=
  (migrate settings sha web w r).2

/-! ### What a URL shows -/

/-- The public URL and the old hosts are the same server. -/
def imageAt (objects : Objects β) (url : Text) : Option β :=
  if settings.publicUrl.isPrefixOf url then
    (objects (url.drop settings.publicUrl.length)).map StoredImage.body
  else match staleMinioPrefixes.find? fun p => p.isPrefixOf url with
  | some p => (objects (url.drop p.length)).map StoredImage.body
  | none => web url

/-- A URL that the script downloads. -/
def Pending (url : Text) : Prop :=
  url ≠ [] ∧ settings.publicUrl.isPrefixOf url = false ∧ rewriteStaleUrl settings url = none ∧
    isHttp url = true

instance (url : Text) : Decidable (Pending settings url) := inferInstanceAs (Decidable (_ ∧ _))

/-- A URL that the script leaves as it is. -/
def Finished (url : Text) : Prop :=
  url = [] ∨ settings.publicUrl.isPrefixOf url = true ∨
    rewriteStaleUrl settings url = none ∧ isHttp url = false

instance (url : Text) : Decidable (Finished settings url) := inferInstanceAs (Decidable (_ ∨ _))

/-! ### One row -/

variable {settings sha web} {kind : Text} {luck : Luck} {objects objects' : Objects β} {url : Text}

theorem migrateRow_cases {outcome : RowOutcome}
    (h : migrateRow settings sha web kind luck objects url = some (outcome, objects')) :
    (outcome = .skipped ∧ objects' = objects ∧ Finished settings url) ∨
    (outcome = .error ∧ objects' = objects) ∨
    (∃ newUrl, outcome = .migrated newUrl ∧ objects' = objects ∧
      settings.publicUrl.isPrefixOf url = false ∧ rewriteStaleUrl settings url = some newUrl) ∨
    (Pending settings url ∧ ∃ data, web url = some data ∧
      objects' = (uploadImage settings objects kind (imageName sha url) data
        (contentTypeFromUrl url)).2 ∧
      (outcome = .error ∨
        outcome = .migrated (settings.publicUrl ++
          objectPath settings (imageKey kind (imageName sha url))))) := by
  unfold migrateRow at h
  split at h
  next hnil =>
    cases h
    exact Or.inl ⟨rfl, rfl, Or.inl hnil⟩
  next hnil =>
    split at h
    next hpublic =>
      cases h
      exact Or.inl ⟨rfl, rfl, Or.inr (Or.inl hpublic)⟩
    next hpublic =>
      have hpublic : settings.publicUrl.isPrefixOf url = false :=
        Bool.eq_false_of_not_eq_true hpublic
      cases hstale : rewriteStaleUrl settings url with
      | some newUrl =>
        rw [hstale] at h
        dsimp only at h
        split at h
        · split at h
          · cases h
            exact Or.inr (Or.inr (Or.inl ⟨newUrl, rfl, rfl, hpublic, rfl⟩))
          · cases h
            exact Or.inr (Or.inl ⟨rfl, rfl⟩)
        · cases h
          exact Or.inr (Or.inl ⟨rfl, rfl⟩)
      | none =>
        rw [hstale] at h
        dsimp only at h
        split at h
        next hhttp =>
          split at h
          · cases h
          · rename_i data hfetch hweb
            have hpending : Pending settings url := ⟨hnil, hpublic, hstale, hhttp⟩
            cases hup : luck.upload with
            | stored =>
              rw [hup] at h
              cases h
              exact Or.inr (Or.inr (Or.inr ⟨hpending, data, hweb, rfl, Or.inr rfl⟩))
            | refused =>
              rw [hup] at h
              cases h
              exact Or.inr (Or.inl ⟨rfl, rfl⟩)
            | unanswered =>
              rw [hup] at h
              cases h
              exact Or.inr (Or.inr (Or.inr ⟨hpending, data, hweb, rfl, Or.inl rfl⟩))
          · cases h
            exact Or.inr (Or.inl ⟨rfl, rfl⟩)
        next hhttp =>
          cases h
          exact Or.inl ⟨rfl, rfl, Or.inr (Or.inr ⟨hstale, by simpa using hhttp⟩)⟩

theorem migrateRow_finished (h : Finished settings url) :
    migrateRow settings sha web kind luck objects url = some (.skipped, objects) := by
  unfold migrateRow
  by_cases hnil : url = []
  · rw [if_pos hnil]
  · by_cases hpublic : settings.publicUrl.isPrefixOf url = true
    · rw [if_neg hnil, if_pos hpublic]
    · obtain ⟨hstale, hhttp⟩ : rewriteStaleUrl settings url = none ∧ isHttp url = false := by
        rcases h with h | h | h
        · exact absurd h hnil
        · exact absurd h hpublic
        · exact h
      rw [if_neg hnil, if_neg hpublic, hstale]
      dsimp only
      rw [if_neg (by rw [hhttp]; decide)]

/-! ### What a row shows -/

theorem isPrefixOf_append (p rest : Text) : p.isPrefixOf (p ++ rest) = true :=
  List.isPrefixOf_iff_prefix.mpr (List.prefix_append ..)

variable (settings web) in
/-- Every URL that shows something goes on showing it. -/
def Keeps (objects objects' : Objects β) : Prop :=
  ∀ url c, imageAt settings web objects url = some c → imageAt settings web objects' url = some c

theorem Keeps.refl (objects : Objects β) : Keeps settings web objects objects := fun _ _ h => h

theorem Keeps.trans {objects'' : Objects β} (h : Keeps settings web objects objects')
    (h' : Keeps settings web objects' objects'') : Keeps settings web objects objects'' :=
  fun url c hc => h' url c (h url c hc)

section

variable {urls : List Text} {data : β} {contentType : Text}

end

variable (settings web) in
/-- The row is still the same one, and what it showed it shows. -/
def KeptRow (objects objects' : Objects β) (row row' : ImageRow) : Prop :=
  row'.id = row.id ∧ ∀ c, imageAt settings web objects row.url = some c →
    imageAt settings web objects' row'.url = some c

theorem KeptRow.mono {objects'' : Objects β} {row row' : ImageRow}
    (h : KeptRow settings web objects objects' row row')
    (hkeeps : Keeps settings web objects' objects'') :
    KeptRow settings web objects objects'' row row' :=
  ⟨h.1, fun c hc => hkeeps _ c (h.2 c hc)⟩

theorem KeptRow.trans {objects'' : Objects β} {row row' row'' : ImageRow}
    (h : KeptRow settings web objects objects' row row')
    (h' : KeptRow settings web objects' objects'' row' row'') :
    KeptRow settings web objects objects'' row row'' :=
  ⟨h'.1.trans h.1, fun c hc => h'.2 c (h.2 c hc)⟩

/-- An image of another site and one that was stored under an old host. -/
def sampleStorage : StorageSettings :=
  { defaultSettings with publicUrl := "https://allstay.rest/storage".toList }

def sampleSha : Sha1 where
  hexdigest text := (text.reverse ++ List.replicate 40 '0').take 40
  length text := by simp

def sampleWeb (url : Text) : Option ℕ :=
  if url = "https://x.org/a.jpg".toList then some 1 else none

def sampleImages : ImageWorld ℕ where
  hotelImages := [⟨1, some "https://x.org/a.jpg".toList⟩,
    ⟨2, some "http://minio:9000/hotel-avatars/hotels/b.png".toList⟩]
  roomImages := [⟨1, none⟩]
  objects path :=
    if path = "/hotel-avatars/hotels/b.png".toList then some ⟨2, "image/png".toList⟩ else none

def sampleRun : MigrationRun :=
  ⟨fun _ => ⟨true, .answered, .stored⟩, fun _ => ⟨true, .answered, .stored⟩, true⟩

def Tally.total (t : Tally) : ℕ := t.migrated + t.skipped + t.errors

theorem Tally.total_count (t : Tally) (outcome : RowOutcome) :
    (t.count outcome).total = t.total + 1 := by
  cases outcome <;> simp only [Tally.count, Tally.total] <;> omega

theorem Tally.errors_count (t : Tally) (outcome : RowOutcome) :
    t.errors ≤ (t.count outcome).errors := by
  cases outcome <;> simp only [Tally.count] <;> omega

theorem finished_public {row : ImageRow} (path : Text)
    (h : row.url = settings.publicUrl ++ path) : Finished settings row.url := by
  rw [h]
  exact Or.inr (Or.inl (isPrefixOf_append ..))

theorem migrateRow_finishes {row : ImageRow} {outcome : RowOutcome}
    (h : migrateRow settings sha web kind luck objects row.url = some (outcome, objects'))
    (hne : outcome ≠ .error) : Finished settings (outcome.apply row).url := by
  rcases migrateRow_cases h with ⟨rfl, -, hfin⟩ | ⟨rfl, -⟩ | ⟨newUrl, rfl, -, -, hstale⟩ |
    ⟨-, data, -, -, rfl | rfl⟩
  · exact hfin
  · exact absurd rfl hne
  · obtain ⟨p, -, hnew⟩ := Option.map_eq_some_iff.mp hstale
    exact finished_public _ hnew.symm
  · exact absurd rfl hne
  · exact finished_public _ rfl

/-- The counters count every row once, and only rows with an error are left. -/
theorem migrateTable_counts {luck : ℤ → Luck} {rows rows' : List ImageRow} {tally t : Tally}
    (h : migrateTable settings sha web kind luck tally rows objects =
      (some (rows', t), objects')) :
    t.total = tally.total + rows.length ∧ tally.errors ≤ t.errors ∧
      (t.errors = tally.errors → ∀ row ∈ rows', Finished settings row.url) := by
  induction rows generalizing tally objects rows' with
  | nil =>
    cases h
    exact ⟨rfl, le_refl _, fun _ => nofun⟩
  | cons row rows ih =>
    rw [migrateTable] at h
    cases hrow : migrateRow settings sha web kind (luck row.id) objects row.url with
    | none =>
      rw [hrow] at h
      cases h
    | some r =>
      obtain ⟨outcome, middle⟩ := r
      rw [hrow] at h
      dsimp only at h
      cases hrest : migrateTable settings sha web kind luck (tally.count outcome) rows middle with
      | mk res final =>
        rw [hrest] at h
        cases res with
        | none => cases h
        | some done =>
          obtain ⟨rows'', t'⟩ := done
          cases h
          obtain ⟨htotal, herrors, hfinished⟩ := ih hrest
          have hcount := tally.errors_count outcome
          refine ⟨?_, hcount.trans herrors, fun hsame x hx => ?_⟩
          · rw [htotal, Tally.total_count, List.length_cons]
            omega
          · rcases List.mem_cons.mp hx with rfl | hx
            · refine migrateRow_finishes hrow ?_
              rintro rfl
              simp only [Tally.count] at herrors
              omega
            · exact hfinished (by omega) x hx

theorem migrateTable_finished (sha : Sha1) (web : Text → Option β) (kind : Text)
    (luck : ℤ → Luck) (tally : Tally) (objects : Objects β) {rows : List ImageRow}
    (h : ∀ row ∈ rows, Finished settings row.url) :
    migrateTable settings sha web kind luck tally rows objects =
      (some (rows, { tally with skipped := tally.skipped + rows.length }), objects) := by
  induction rows generalizing tally with
  | nil => rfl
  | cons row rows ih =>
    have hrest := ih (tally.count .skipped) fun x hx => h x (List.mem_cons_of_mem _ hx)
    rw [migrateTable, migrateRow_finished (h row (List.mem_cons_self ..))]
    dsimp only
    rw [hrest]
    simp only [RowOutcome.apply, Tally.count, List.length_cons, Nat.add_assoc, Nat.add_comm 1]

theorem migrationStep_finished {w : ImageWorld β} (r : MigrationRun)
    (h : ∀ row ∈ w.hotelImages ++ w.roomImages, Finished settings row.url) :
    migrationStep settings sha web w r = w := by
  have hhotels := migrateTable_finished sha web hotelsKind r.hotels .zero w.objects
    fun row hrow => h row (List.mem_append_left _ hrow)
  have hrooms := migrateTable_finished sha web roomsKind r.rooms .zero w.objects
    fun row hrow => h row (List.mem_append_right _ hrow)
  rw [migrationStep, migrate, hhotels]
  dsimp only
  rw [hrooms]
  dsimp only
  cases r.commits <;> rfl

/-- A committed run counts each row once. If it counts no error, every row is
left as it is from then on, and no later run changes a row or an object. -/
theorem migration_settles (settings : StorageSettings) (sha : Sha1) (web : Text → Option β)
    (w : ImageWorld β) (r : MigrationRun) (t : Tally)
    (h : (migrate settings sha web w r).1 = some t) :
    t.total = w.hotelImages.length + w.roomImages.length ∧
    (t.errors = 0 →
      (∀ row ∈ (migrationStep settings sha web w r).hotelImages ++
        (migrationStep settings sha web w r).roomImages, Finished settings row.url) ∧
      ∀ runs, run (migrationStep settings sha web) w (r :: runs) =
        migrationStep settings sha web w r) := by
  have hfixed : ∀ w' : ImageWorld β,
      (∀ row ∈ w'.hotelImages ++ w'.roomImages, Finished settings row.url) →
      ∀ runs, run (migrationStep settings sha web) w' runs = w' := by
    intro w' hw' runs
    induction runs with
    | nil => rfl
    | cons r runs ih => rw [run_cons, migrationStep_finished r hw', ih]
  suffices hall : t.total = w.hotelImages.length + w.roomImages.length ∧
      (t.errors = 0 → ∀ row ∈ (migrationStep settings sha web w r).hotelImages ++
        (migrationStep settings sha web w r).roomImages, Finished settings row.url) by
    exact ⟨hall.1, fun hclean => ⟨hall.2 hclean, hfixed _ (hall.2 hclean)⟩⟩
  unfold migrationStep
  unfold migrate at h ⊢
  cases hotelsRun : migrateTable settings sha web hotelsKind r.hotels .zero w.hotelImages
    w.objects with
  | mk res middle =>
    rw [hotelsRun] at h
    cases res with
    | none => cases h
    | some done =>
      obtain ⟨hotels, t₁⟩ := done
      dsimp only at h ⊢
      cases roomsRun : migrateTable settings sha web roomsKind r.rooms .zero w.roomImages
        middle with
      | mk res' final =>
        rw [roomsRun] at h
        cases res' with
        | none => cases h
        | some done' =>
          obtain ⟨rooms, t₂⟩ := done'
          dsimp only at h ⊢
          cases hcommit : r.commits with
          | false =>
            rw [hcommit] at h
            cases h
          | true =>
            rw [hcommit] at h
            obtain rfl : t₁.add t₂ = t := Option.some.inj h
            obtain ⟨htotal₁, -, hfin₁⟩ := migrateTable_counts hotelsRun
            obtain ⟨htotal₂, -, hfin₂⟩ := migrateTable_counts roomsRun
            simp only [Tally.total, Tally.zero, Tally.add] at htotal₁ htotal₂ hfin₁ hfin₂ ⊢
            refine ⟨by omega, fun hclean row hrow => ?_⟩
            rcases List.mem_append.mp hrow with hrow | hrow
            · exact hfin₁ (by omega) row hrow
            · exact hfin₂ (by omega) row hrow

theorem migration_settles_sample :
    (⟨2, 1, 0⟩ : Tally).total = 2 + 1 ∧
    (0 = 0 → (∀ row ∈ (migrationStep sampleStorage sampleSha sampleWeb sampleImages
        sampleRun).hotelImages ++ (migrationStep sampleStorage sampleSha sampleWeb sampleImages
        sampleRun).roomImages, Finished sampleStorage row.url) ∧
      ∀ runs, run (migrationStep sampleStorage sampleSha sampleWeb) sampleImages
        (sampleRun :: runs) =
        migrationStep sampleStorage sampleSha sampleWeb sampleImages sampleRun) :=
  migration_settles sampleStorage sampleSha sampleWeb sampleImages sampleRun ⟨2, 1, 0⟩
    (by decide +kernel)

end

end HotelMs
