import HotelMs.Accounts
import HotelMs.Lib.Numerals
import HotelMs.Lib.Segments

/-!
# Avatars (`services/storage.py` and the photo endpoints of `api/v1/user/profile.py`)

The key of an object is cut out of its URL, at the name of the bucket.
-/

namespace HotelMs

open Numerals Segments

abbrev Text := List Char

/-- `MINIO_BUCKET` and `MINIO_PUBLIC_URL`. The name of a bucket has no slash. -/
structure StorageSettings where
  bucket : Text
  publicUrl : Text
  no_slash : '/' ∉ bucket

/-! ### Names, keys and URLs -/

/-- `filename.rsplit(".", 1)[-1].lower() if "." in filename else "jpg"`. -/
def photoExt (lower : Text → Text) (filename : Text) : Text :=
  if '.' ∈ filename then lower ((filename.splitOn '.').getLast (List.splitOn_ne_nil '.' filename))
  else "jpg".toList

/-- `hex` is that of `uuid.uuid4()`. -/
def photoName (userId : ℤ) (hex ext : Text) : Text :=
  "user_".toList ++ intText userId ++ '_' :: hex ++ '.' :: ext

def avatarKey (filename : Text) : Text := "avatars".toList ++ '/' :: filename

def avatarUrl (settings : StorageSettings) (key : Text) : Text :=
  settings.publicUrl ++ '/' :: (settings.bucket ++ '/' :: key)

/-- The key that `delete_avatar` asks the store to delete. -/
def deletedKey (settings : StorageSettings) (photoUrl : Text) : Option Text :=
  if photoUrl = [] ∨ ¬settings.bucket <:+: photoUrl then none
  else some (joined '/' (splitText (between '/' settings.bucket) photoUrl).tail)

/-- What is deleted for the URL of an uploaded file is its key. -/
def UrlRoundTrips (settings : StorageSettings) (lower : Text → Text) (userId : ℤ)
    (hex filename : Text) : Prop :=
  let key := avatarKey (photoName userId hex (photoExt lower filename))
  deletedKey settings (avatarUrl settings key) = some key

instance (settings : StorageSettings) (lower : Text → Text) (userId : ℤ) (hex filename : Text) :
    Decidable (UrlRoundTrips settings lower userId hex filename) :=
  inferInstanceAs (Decidable (_ = _))

section

variable (settings : StorageSettings)

def nameSegments (name : Text) : List Text := name.splitOn '/'

/-- The segments of the public URL behind the first. -/
def pathSegments : List Text := (settings.publicUrl.splitOn '/').tail

theorem bucket_inside (key : Text) : settings.bucket <:+: avatarUrl settings key := by
  refine ⟨settings.publicUrl ++ ['/'], '/' :: key, ?_⟩
  unfold avatarUrl
  simp only [List.append_assoc, List.cons_append, List.nil_append]

theorem avatarUrl_ne_nil (key : Text) : avatarUrl settings key ≠ [] := by
  unfold avatarUrl
  exact List.append_ne_nil_of_right_ne_nil _ (List.cons_ne_nil _ _)

/-- The name of a photo begins with `user_`, also its first segment. -/
theorem nameSegments_photoName (userId : ℤ) (hex ext : Text) : ∃ first rest,
    nameSegments (photoName userId hex ext) = first :: rest ∧ first ≠ "avatars".toList := by
  obtain ⟨rest, hrest⟩ : ∃ rest, photoName userId hex ext = 'u' :: rest := ⟨_, rfl⟩
  obtain ⟨piece, more, hpieces⟩ := List.exists_cons_of_ne_nil (List.splitOn_ne_nil '/' rest)
  refine ⟨'u' :: piece, more, ?_, fun h => ?_⟩
  · rw [nameSegments, hrest, List.splitOn_cons_eq_if_modifyHead, hpieces]
    rfl
  · cases h

theorem avatarKey_segments (name : Text) :
    avatarKey name = joined '/' ("avatars".toList :: nameSegments name) := by
  have hne : nameSegments name ≠ [] := List.splitOn_ne_nil '/' name
  rw [joined_cons_of_ne hne, nameSegments, joined_splitOn]
  rfl

theorem avatarUrl_segments (name : Text) : avatarUrl settings (avatarKey name) =
    joined '/' (settings.publicUrl.splitOn '/' ++
      settings.bucket :: "avatars".toList :: nameSegments name) := by
  rw [joined_append (List.splitOn_ne_nil _ _) (List.cons_ne_nil _ _), joined_splitOn,
    joined_cons_cons, ← avatarKey_segments]
  rfl

theorem avatarKey_no_slash (name : Text) :
    ∀ x ∈ "avatars".toList :: nameSegments name, '/' ∉ x := by
  intro x hx
  rcases List.mem_cons.mp hx with rfl | hx
  · decide
  · exact not_mem_of_mem_splitOn x hx

theorem avatarUrl_no_slash (name : Text) : ∀ x ∈ settings.publicUrl.splitOn '/' ++
    settings.bucket :: "avatars".toList :: nameSegments name, '/' ∉ x := by
  intro x hx
  rcases List.mem_append.mp hx with hx | hx
  · exact not_mem_of_mem_splitOn x hx
  · rcases List.mem_cons.mp hx with rfl | hx
    · exact settings.no_slash
    · exact avatarKey_no_slash name x hx

theorem deletedKey_avatarUrl (name : Text) :
    deletedKey settings (avatarUrl settings (avatarKey name)) = some (joined '/'
      (behind settings.bucket (settings.publicUrl.splitOn '/' ++
        settings.bucket :: "avatars".toList :: nameSegments name))) := by
  rw [deletedKey, if_neg (not_or.mpr ⟨avatarUrl_ne_nil settings _,
    not_not.mpr (bucket_inside settings _)⟩), avatarUrl_segments,
    joined_splitText settings.no_slash
      (List.append_ne_nil_of_left_ne_nil (List.splitOn_ne_nil _ _) _)
      (avatarUrl_no_slash settings name)]

theorem avatar_url_round_trip_iff (lower : Text → Text) (userId : ℤ) (hex filename : Text) :
    UrlRoundTrips settings lower userId hex filename ↔
      settings.bucket ∉
        (nameSegments (photoName userId hex (photoExt lower filename))).dropLast ∧
      (settings.bucket ∉ pathSegments settings ∨
        "avatars".toList = settings.bucket ∧
          (pathSegments settings).getLast? = some settings.bucket ∧
          settings.bucket ∉ (pathSegments settings).dropLast) := by
  obtain ⟨first, rest, hsegments, hfirst⟩ :=
    nameSegments_photoName userId hex (photoExt lower filename)
  have hfront : settings.publicUrl.splitOn '/' ≠ [] := List.splitOn_ne_nil _ _
  have hback := behind_ne_nil (b := settings.bucket) hfront
    (List.cons_ne_nil "avatars".toList (first :: rest))
  unfold UrlRoundTrips
  dsimp only
  generalize photoName userId hex (photoExt lower filename) = name at hsegments
  have hfree := avatarUrl_no_slash settings name
  have hkey := avatarKey_no_slash name
  rw [deletedKey_avatarUrl, Option.some.injEq, avatarKey_segments]
  rw [hsegments] at hfree hkey ⊢
  rw [joined_injective hback (List.cons_ne_nil _ _)
    (fun x hx => hfree x (mem_of_mem_behind hx)) hkey, behind_eq_iff hfront hfirst]
  rfl

end

def defaultSettings : StorageSettings where
  bucket := "hotel-avatars".toList
  publicUrl := "http://localhost:9000".toList
  no_slash := by decide

def sampleHex : Text := "0f1e2d3c4b5a69788796a5b4c3d2e1f0".toList

example : UrlRoundTrips defaultSettings (List.map Char.toLower) 7 sampleHex "me.PNG".toList := by
  decide +kernel

/-- A client may send any extension. -/
theorem extension_names_bucket : ¬UrlRoundTrips defaultSettings (List.map Char.toLower) 7 sampleHex
    "me./hotel-avatars/x".toList := by
  decide +kernel

end HotelMs
