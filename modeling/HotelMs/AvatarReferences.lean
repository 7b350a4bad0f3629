import HotelMs.AvatarStorage

/-!
# Avatars and the rows that name them (`upload_photo`, `delete_photo`)

The bucket and the database are changed one after the other. Each change may fail, may
take effect, or may take effect and be reported as failed.
-/

namespace HotelMs

inductive Outcome
  | done
  | refused
  | unanswered
  deriving DecidableEq

def Outcome.takesEffect : Outcome → Bool
  | .done => true
  | .refused => false
  | .unanswered => true

/-- What the calls of one request come to. `gone`: the row of the user was deleted
since it was read. -/
structure PhotoFaults where
  put : Outcome
  remove : Outcome
  commit : Outcome
  gone : Bool

/-- `photo_url` in the row of the user, and the keys in the bucket. -/
structure Avatars where
  photoUrl : Option Text
  objects : List Text

structure PhotoFile where
  contentType : String
  size : ℕ
  filename : Text

inductive PhotoChange
  | upload (file : PhotoFile) (hex : Text)
  | delete

section

variable (settings : StorageSettings) (lower : Text → Text) (userId : ℤ) (faults : PhotoFaults)

/-- `put_object`. -/
def uploadAvatar (key : Text) (a : Avatars) : Avatars :=
  { a with objects := if faults.put.takesEffect then key :: a.objects else a.objects }

/-- What it raises it swallows. -/
def deleteAvatar (photoUrl : Text) (a : Avatars) : Avatars :=
  match deletedKey settings photoUrl with
  | none => a
  | some key =>
    { a with
      objects := if faults.remove.takesEffect then a.objects.filter (· ≠ key) else a.objects }

/-- `if old_url: delete_avatar(old_url)`. -/
def deleteOld (a : Avatars) : Avatars :=
  match a.photoUrl with
  | none => a
  | some url => if url = [] then a else deleteAvatar settings faults url a

/-- `update_user`, and the 404 when it finds no row. -/
def updatePhotoUrl (photoUrl : Option Text) (a : Avatars) : Except Error Unit × Avatars :=
  if faults.gone then (.error userNotFound, { a with photoUrl := none })
  else (if faults.commit = .done then .ok () else .error .data,
    if faults.commit.takesEffect then { a with photoUrl } else a)

def PhotoFile.accepted (file : PhotoFile) : Except Error Unit := do
  ensure (file.contentType ∈ allowedTypes)
    (.http 400 "Only JPEG, PNG, and WebP images are allowed.")
  ensure (file.size ≤ maxSize) (.http 400 "File is too large. Maximum size is 5 MB.")

def uploadedKey (file : PhotoFile) (hex : Text) : Text :=
  avatarKey (photoName userId hex (photoExt lower file.filename))

def Avatars.uploadPhoto (a : Avatars) (file : PhotoFile) (hex : Text) :
    Except Error Unit × Avatars :=
  match file.accepted with
  | .error e => (.error e, a)
  | .ok () =>
    let key := uploadedKey lower userId file hex
    let stored := uploadAvatar faults key a
    if faults.put = .done then
      updatePhotoUrl faults (some (avatarUrl settings key)) (deleteOld settings faults stored)
    else (.error .data, stored)

def Avatars.deletePhoto (a : Avatars) : Except Error Unit × Avatars :=
  updatePhotoUrl faults none (deleteOld settings faults a)

def changePhoto (a : Avatars) : PhotoChange → Except Error Unit × Avatars
  | .upload file hex => a.uploadPhoto settings lower userId faults file hex
  | .delete => a.deletePhoto settings faults

end

/-! ### References -/

section

variable (settings : StorageSettings)

/-- The URL is null, external, or that of an object in the bucket. -/
def Avatars.Refers (a : Avatars) : Prop :=
  ∀ key, a.photoUrl = some (avatarUrl settings key) → key ∈ a.objects

variable (lower : Text → Text) (userId : ℤ) (faults : PhotoFaults) (a : Avatars)

/-- The new object is in the bucket, if there is one, and the old one is next. -/
def Reached : PhotoChange → Prop
  | .upload file _ => file.accepted = .ok () ∧ faults.put = .done
  | .delete => True

/-- The row names the new object, nothing, or is gone. -/
def Updated : Prop := faults.gone = true ∨ faults.commit.takesEffect = true

/-- The object that the row names was deleted. -/
def OldRemoved : Prop :=
  faults.remove.takesEffect = true ∧ ∃ key, a.photoUrl = some (avatarUrl settings key) ∧
    deletedKey settings (avatarUrl settings key) = some key

/-- What `uuid.uuid4()` answers was in no name before. -/
def Fresh : PhotoChange → Prop
  | .upload file hex => ∀ url, a.photoUrl = some url →
      url ≠ avatarUrl settings (uploadedKey lower userId file hex) ∧
        deletedKey settings url ≠ some (uploadedKey lower userId file hex)
  | .delete => True

end

/-! ### What each call changes -/

section

variable {settings : StorageSettings} {lower : Text → Text} {userId : ℤ} {faults : PhotoFaults}
  {a : Avatars}

theorem avatarUrl_injective {key key' : Text}
    (h : avatarUrl settings key = avatarUrl settings key') : key = key' := by
  have hbehind := (List.cons.inj (List.append_cancel_left h)).2
  exact (List.cons.inj (List.append_cancel_left hbehind)).2

theorem mem_uploadAvatar {key key' : Text} : key' ∈ (uploadAvatar faults key a).objects ↔
    (faults.put.takesEffect = true ∧ key' = key) ∨ key' ∈ a.objects := by
  unfold uploadAvatar
  dsimp only
  split
  next heffect => rw [List.mem_cons, and_iff_right heffect]
  next heffect => exact ⟨.inr, fun h => h.resolve_left fun h => heffect h.1⟩

theorem deleteOld_photoUrl : (deleteOld settings faults a).photoUrl = a.photoUrl := by
  unfold deleteOld deleteAvatar
  split
  · rfl
  · split
    · rfl
    · split <;> rfl

theorem mem_deleteAvatar {url key : Text} :
    key ∈ (deleteAvatar settings faults url a).objects ↔ key ∈ a.objects ∧
      ¬(faults.remove.takesEffect = true ∧ deletedKey settings url = some key) := by
  unfold deleteAvatar
  cases deletedKey settings url with
  | none => exact ⟨fun h => ⟨h, fun hremoved => by cases hremoved.2⟩, fun h => h.1⟩
  | some gone =>
    dsimp only
    rw [Option.some.injEq]
    split
    next heffect =>
      rw [List.mem_filter, and_iff_right heffect, decide_eq_true_eq]
      exact and_congr_right fun _ => not_congr eq_comm
    next heffect => exact ⟨fun h => ⟨h, fun hremoved => heffect hremoved.1⟩, fun h => h.1⟩

theorem mem_deleteOld {key : Text} : key ∈ (deleteOld settings faults a).objects ↔
    key ∈ a.objects ∧ ¬(faults.remove.takesEffect = true ∧
      ∃ url, a.photoUrl = some url ∧ deletedKey settings url = some key) := by
  have hempty : deletedKey settings [] = none := if_pos (.inl rfl)
  unfold deleteOld
  split
  next hnone =>
    rw [hnone]
    exact ⟨fun h => ⟨h, fun ⟨_, _, hurl, _⟩ => by cases hurl⟩, fun h => h.1⟩
  next url hurl =>
    have hnamed : (∃ url', a.photoUrl = some url' ∧ deletedKey settings url' = some key) ↔
        deletedKey settings url = some key := by
      constructor
      · rintro ⟨url', hurl', hkey⟩
        obtain rfl := Option.some.inj (hurl.symm.trans hurl')
        exact hkey
      · exact fun hkey => ⟨url, hurl, hkey⟩
    rw [hnamed]
    split
    next hnil =>
      rw [hnil, hempty]
      exact ⟨fun h => ⟨h, fun hremoved => by cases hremoved.2⟩, fun h => h.1⟩
    next => exact mem_deleteAvatar

theorem updatePhotoUrl_objects (photoUrl : Option Text) :
    (updatePhotoUrl faults photoUrl a).2.objects = a.objects := by
  unfold updatePhotoUrl
  split
  · rfl
  · dsimp only
    split <;> rfl

theorem updatePhotoUrl_of_not_updated (h : ¬Updated faults) (photoUrl : Option Text) :
    (updatePhotoUrl faults photoUrl a).2 = a := by
  obtain ⟨hgone, hcommit⟩ := not_or.mp h
  unfold updatePhotoUrl
  rw [if_neg hgone]
  dsimp only
  rw [if_neg hcommit]

theorem updatePhotoUrl_of_updated (h : Updated faults) (photoUrl : Option Text) :
    (updatePhotoUrl faults photoUrl a).2.photoUrl = none ∨
      (updatePhotoUrl faults photoUrl a).2.photoUrl = photoUrl := by
  unfold updatePhotoUrl
  split
  · exact .inl rfl
  next hgone =>
    dsimp only
    rw [if_pos (h.resolve_left hgone)]
    exact .inr rfl

/-- The old reference behind a delete that was not followed by an update. -/
theorem refers_deleteOld_iff : (deleteOld settings faults a).Refers settings ↔
    a.Refers settings ∧ ¬OldRemoved settings faults a := by
  unfold Avatars.Refers OldRemoved
  simp only [deleteOld_photoUrl, mem_deleteOld]
  constructor
  · intro h
    refine ⟨fun key hkey => (h key hkey).1, ?_⟩
    rintro ⟨heffect, key, hkey, hdeleted⟩
    exact (h key hkey).2 ⟨heffect, _, hkey, hdeleted⟩
  · rintro ⟨hrefers, hkept⟩ key hkey
    refine ⟨hrefers key hkey, ?_⟩
    rintro ⟨heffect, url, hurl, hdeleted⟩
    obtain rfl := Option.some.inj (hkey.symm.trans hurl)
    exact hkept ⟨heffect, key, hkey, hdeleted⟩

/-- A new object changes nothing for the old reference. -/
theorem refers_uploadAvatar_iff {key : Text} (hfresh : a.photoUrl ≠ some (avatarUrl settings key)) :
    (uploadAvatar faults key a).Refers settings ↔ a.Refers settings := by
  have hold : (uploadAvatar faults key a).photoUrl = a.photoUrl := rfl
  unfold Avatars.Refers
  rw [hold]
  refine forall₂_congr fun key' hkey' => ?_
  rw [mem_uploadAvatar]
  refine ⟨fun h => h.resolve_left fun hnew => ?_, .inr⟩
  rw [hnew.2] at hkey'
  exact hfresh hkey'

theorem uploadPhoto_stored {file : PhotoFile} {hex : Text} (haccepted : file.accepted = .ok ())
    (hput : faults.put = .done) :
    a.uploadPhoto settings lower userId faults file hex =
      updatePhotoUrl faults (some (avatarUrl settings (uploadedKey lower userId file hex)))
        (deleteOld settings faults
          (uploadAvatar faults (uploadedKey lower userId file hex) a)) := by
  unfold Avatars.uploadPhoto
  rw [haccepted]
  exact if_pos hput

/-- Before the old object is next, the old reference stays what it is. -/
theorem refers_of_not_reached {change : PhotoChange} (h : ¬Reached faults change)
    (hfresh : Fresh settings lower userId a change) :
    (changePhoto settings lower userId faults a change).2.Refers settings ↔
      a.Refers settings := by
  cases change with
  | delete => exact absurd trivial h
  | upload file hex =>
    show (a.uploadPhoto settings lower userId faults file hex).2.Refers settings ↔ _
    unfold Avatars.uploadPhoto
    split
    · exact Iff.rfl
    next haccepted =>
      have hput : ¬faults.put = .done := fun hput => h ⟨haccepted, hput⟩
      dsimp only
      rw [if_neg hput]
      exact refers_uploadAvatar_iff fun hurl => (hfresh _ hurl).1 rfl

/-- Then the old object is deleted, if it is, and the row updated, if it is. -/
theorem changePhoto_of_reached {change : PhotoChange} (h : Reached faults change)
    (hfresh : Fresh settings lower userId a change) : ∃ url stored,
      (changePhoto settings lower userId faults a change).2 =
        (updatePhotoUrl faults url (deleteOld settings faults stored)).2 ∧
      stored.photoUrl = a.photoUrl ∧ (stored.Refers settings ↔ a.Refers settings) ∧
      ∀ key, url = some (avatarUrl settings key) →
        key ∈ (deleteOld settings faults stored).objects := by
  cases change with
  | delete => exact ⟨none, a, rfl, rfl, Iff.rfl, fun _ hurl => by cases hurl⟩
  | upload file hex =>
    obtain ⟨haccepted, hput⟩ := h
    have hunnamed : a.photoUrl ≠ some (avatarUrl settings (uploadedKey lower userId file hex)) :=
      fun hurl => (hfresh _ hurl).1 rfl
    refine ⟨_, uploadAvatar faults (uploadedKey lower userId file hex) a,
      congrArg Prod.snd (uploadPhoto_stored haccepted hput), rfl,
      refers_uploadAvatar_iff hunnamed, fun key hkey => ?_⟩
    obtain rfl := avatarUrl_injective (Option.some.inj hkey)
    refine mem_deleteOld.mpr ⟨mem_uploadAvatar.mpr (.inl ⟨?_, rfl⟩), ?_⟩
    · rw [hput]
      rfl
    · rintro ⟨_, url, hurl, hdeleted⟩
      exact (hfresh url hurl).2 hdeleted

theorem avatar_refers_iff (settings : StorageSettings) (lower : Text → Text) (userId : ℤ)
    (faults : PhotoFaults) (a : Avatars) (change : PhotoChange)
    (hfresh : Fresh settings lower userId a change) :
    (changePhoto settings lower userId faults a change).2.Refers settings ↔
      (Reached faults change ∧ Updated faults) ∨
        (a.Refers settings ∧ ¬(Reached faults change ∧ OldRemoved settings faults a)) := by
  by_cases hreached : Reached faults change
  · obtain ⟨url, stored, hafter, hsame, hrefers, hnew⟩ := changePhoto_of_reached hreached hfresh
    rw [hafter, and_iff_right hreached, and_iff_right hreached]
    by_cases hupdated : Updated faults
    · refine iff_of_true (fun key hkey => ?_) (.inl hupdated)
      rw [updatePhotoUrl_objects]
      rcases updatePhotoUrl_of_updated (a := deleteOld settings faults stored) hupdated url with
        hnone | hurl
      · cases hnone.symm.trans hkey
      · exact hnew key (hurl.symm.trans hkey)
    · have hold : OldRemoved settings faults stored ↔ OldRemoved settings faults a := by
        unfold OldRemoved
        rw [hsame]
      rw [updatePhotoUrl_of_not_updated hupdated, refers_deleteOld_iff, or_iff_right hupdated,
        hrefers, hold]
  · rw [refers_of_not_reached hreached hfresh, or_iff_right fun h => hreached h.1]
    exact ⟨fun h => ⟨h, fun hboth => hreached hboth.1⟩, fun h => h.1⟩

end

/-! ### A photo is replaced, a photo is deleted -/

def oldKey : Text := avatarKey "user_7_ffeeddccbbaa99887766554433221100.jpg".toList

def photographed : Avatars := ⟨some (avatarUrl defaultSettings oldKey), [oldKey]⟩

def newPhoto : PhotoChange := .upload ⟨"image/png", 2048, "me.PNG".toList⟩ sampleHex

theorem newPhoto_fresh :
    Fresh defaultSettings (List.map Char.toLower) 7 photographed newPhoto := by
  intro url hurl
  obtain rfl := Option.some.inj hurl
  decide +kernel

theorem replaced_photo_refers :
    (changePhoto defaultSettings (List.map Char.toLower) 7 ⟨.done, .unanswered, .unanswered, false⟩
      photographed newPhoto).2.Refers defaultSettings :=
  (avatar_refers_iff defaultSettings (List.map Char.toLower) 7
    ⟨.done, .unanswered, .unanswered, false⟩ photographed newPhoto newPhoto_fresh).mpr
    (.inl ⟨⟨by decide, rfl⟩, .inr rfl⟩)

/-- The object is deleted and the row still names it. -/
theorem deleted_photo_dangles :
    photographed.Refers defaultSettings ∧
      ¬(changePhoto defaultSettings (List.map Char.toLower) 7 ⟨.done, .done, .refused, false⟩
        photographed .delete).2.Refers defaultSettings := by
  constructor
  · intro key hkey
    obtain rfl := avatarUrl_injective (Option.some.inj hkey)
    exact List.mem_singleton_self oldKey
  · intro hrefers
    have hmem := hrefers oldKey rfl
    revert hmem
    decide +kernel

end HotelMs
