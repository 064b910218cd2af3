import HighRollers.FirstMaximum
import HighRollers.PixelConversion

/-!
# Pictures kept in the gallery

`SavePicture` writes the current frame to a new file in the folder `PokerHands`
and then means to delete the oldest picture, so that three remain.  The files
it goes through are those of `out`, the picture just written, and not those of
the folder.  On the folder itself the loop would choose a newest picture.
-/

namespace HighRollers
namespace Picture

open Java

structure StoredFile where
  name : String
  lastModified : ℤ
  pixels : List Pixel
  deriving DecidableEq, Repr

/-- The folder, if it exists, and the text of `messageSnackbarHelper`. -/
structure Storage where
  folder : Option (List StoredFile)
  snackbar : Option String
  deriving DecidableEq, Repr

def Storage.files (storage : Storage) : List StoredFile :=
  storage.folder.getD []

inductive Path
  | pokerHands
  | picture (name : String)
  deriving DecidableEq, Repr

/-- `File.listFiles`: the entries of the folder in the order in which the
system yields them, and `null` for a path which is not a directory. -/
def listFiles (entries : List StoredFile) : Path → Option (List StoredFile)
  | .pokerHands => some entries
  | .picture _ => none

/-- One call of `SavePicture`: the clock, the frame buffer, whether the file
can be opened, and the order in which directories are listed. -/
structure Capture where
  time : ℕ
  mWidth : ℕ
  mHeight : ℕ
  pixelData : List Pixel
  opens : Bool
  order : List StoredFile → List StoredFile

/-- `"Img" + Long.toHexString(time) + ".png"`. -/
def imageName (time : ℕ) : String :=
  "Img" ++ String.ofList (Nat.toDigits 16 time) ++ ".png"

def mkdirs (storage : Storage) : Storage :=
  { storage with folder := some storage.files }

/-- A file of the same name is overwritten. -/
def writeFile (file : StoredFile) (storage : Storage) : Storage :=
  { storage with
    folder := some ((storage.files.filter fun other =>
      other.name ≠ file.name) ++ [file]) }

def deleteFile (file : StoredFile) (storage : Storage) : Storage :=
  { storage with
    folder := storage.folder.map fun files =>
      files.filter fun other => other.name ≠ file.name }

/-- `Bitmap.createBitmap` rejects an empty picture. -/
def createBitmap (bitmap : Bitmap) (width height : ℕ) : Run (List Pixel) :=
  if width = 0 ∨ height = 0 then .error .external else .ok bitmap.data

/-- `SavePicture` up to its message; the result is `out`. -/
def writePicture (capture : Capture) : Method Storage Path := do
  let out := imageName capture.time
  modify mkdirs
  let bitmapData ←
    call (convert capture.pixelData capture.mWidth capture.mHeight)
  let bmp ← call (createBitmap bitmapData capture.mWidth capture.mHeight)
  if capture.opens then
    modify (writeFile ⟨out, capture.time, bmp⟩)
  else
    throw .external
  modify fun storage =>
    { storage with snackbar := some ("Wrote file: " ++ out) }
  return .picture out

/-- The loop which looks for the file to delete: the time stamp and the index
found so far. -/
def oldestScan (files : List StoredFile) (oldestTimeStamp : ℤ) :
    Run (Completion StoredFile (ℤ × ℤ)) :=
  forRange 1 files.length (oldestTimeStamp, 0) fun i oldest =>
    assign do
      let temp ← arrayGet files i
      return if temp.lastModified > oldest.1 then (temp.lastModified, (i : ℤ))
        else oldest

def oldestFile (files : List StoredFile) (oldestTimeStamp : ℤ) :
    Run StoredFile :=
  afterLoop (oldestScan files oldestTimeStamp) fun oldest =>
    arrayGet files oldest.2

/-- The end of `SavePicture`; the listing stays the same during the call. -/
def prunePictures (out : Path) (order : List StoredFile → List StoredFile) :
    Method Storage Unit := do
  let entries := order (← get).files
  let files ← call (deref (listFiles entries out))
  let first ← call (arrayGet files 0)
  if files.length > 3 then
    let oldest ← call (oldestFile files first.lastModified)
    modify (deleteFile oldest)

def savePicture (capture : Capture) : Method Storage Unit := do
  let out ← writePicture capture
  prunePictures out capture.order

def Storage.run (storage : Storage) (captures : List Capture) : Storage :=
  captures.foldl (fun current capture => (savePicture capture).after current)
    storage

/-! ## Retention -/

def StoredFile.label (file : StoredFile) : String × ℤ :=
  (file.name, file.lastModified)

/-- The folder holds the latest of the given pictures, three of them if there
are as many, and among them the one named. -/
structure HoldsLatest (pictures : List (String × ℤ))
    (files : List StoredFile) (latest : String) : Prop where
  taken : ∀ file ∈ files, file.label ∈ pictures
  nodup : (files.map StoredFile.name).Nodup
  length : files.length = min 3 pictures.length
  recent : ∀ file ∈ files, ∀ other ∈ pictures,
    other ∉ files.map StoredFile.label → other.2 ≤ file.lastModified
  newest : latest ∈ files.map StoredFile.name

/-- The pictures which were there at the start, and those taken since. -/
def picturesTaken (start : Storage) (captures : List Capture) :
    List (String × ℤ) :=
  start.files.map StoredFile.label ++
    captures.map fun capture => (imageName capture.time, (capture.time : ℤ))

/-- Every call of the sequence returns and leaves the latest pictures. -/
def Retains (start : Storage) (captures : List Capture) : Prop :=
  ∀ before capture after, captures = before ++ capture :: after →
    ∃ storage,
      (savePicture capture).run (start.run before) = .ok () storage ∧
        HoldsLatest (picturesTaken start (before ++ [capture])) storage.files
          (imageName capture.time)

/-- The picture just written is a regular file and has no files in it. -/
theorem prunePictures_run
    (name : String) (order : List StoredFile → List StoredFile)
    (storage : Storage) :
    (prunePictures (.picture name) order).run storage =
      .error .nullPointer storage := by
  simp [prunePictures, listFiles, deref]

def written (capture : Capture) (pixels : List Pixel) (storage : Storage) :
    Storage :=
  { writeFile ⟨imageName capture.time, capture.time, pixels⟩
      (mkdirs storage) with
    snackbar := some ("Wrote file: " ++ imageName capture.time) }

section Calls

variable (capture : Capture) (storage : Storage)

variable {capture} in
theorem writePicture_run
    {bitmap : Bitmap} {pixels : List Pixel}
    (hconvert : convert capture.pixelData capture.mWidth capture.mHeight =
      .ok bitmap)
    (hcreate : createBitmap bitmap capture.mWidth capture.mHeight = .ok pixels)
    (hopens : capture.opens = true) :
    (writePicture capture).run storage =
      .ok (.picture (imageName capture.time))
        (written capture pixels storage) := by
  simp only [writePicture, EStateM.run_bind, run_assign, hconvert, hcreate,
    run_call_ok, hopens, if_true]
  rfl

/-- How a call ends does not depend on the folder. -/
theorem writePicture_cases :
    (∃ e, ∀ storage,
        (writePicture capture).run storage = .error e (mkdirs storage)) ∨
      ∃ pixels, ∀ storage, (writePicture capture).run storage =
        .ok (.picture (imageName capture.time))
          (written capture pixels storage) := by
  cases hconvert : convert capture.pixelData capture.mWidth
      capture.mHeight with
  | error e =>
      left
      exact ⟨e, fun storage => by simp [writePicture, hconvert]⟩
  | ok bitmap =>
      cases hcreate : createBitmap bitmap capture.mWidth capture.mHeight with
      | error e =>
          left
          exact ⟨e, fun storage => by simp [writePicture, hconvert, hcreate]⟩
      | ok pixels =>
          by_cases hopens : capture.opens = true
          · right
            exact ⟨pixels, fun storage =>
              writePicture_run storage hconvert hcreate hopens⟩
          · left
            exact ⟨.external, fun storage => by
              simp [writePicture, hconvert, hcreate, hopens]⟩

/-- A call leaves an exception behind, and at most the new picture. -/
theorem savePicture_cases :
    (∃ e, ∀ storage,
        (savePicture capture).run storage = .error e (mkdirs storage)) ∨
      ∃ pixels, ∀ storage, (savePicture capture).run storage =
        .error .nullPointer (written capture pixels storage) := by
  rcases writePicture_cases capture with ⟨e, hrun⟩ | ⟨pixels, hrun⟩
  · left
    exact ⟨e, fun storage => by simp [savePicture, hrun]⟩
  · right
    exact ⟨pixels, fun storage => by
      simp [savePicture, hrun, prunePictures_run]⟩

/-- The call gets as far as its message. -/
def Capture.IsWritten (capture : Capture) : Prop :=
  ∃ pixels, ∀ storage,
    (savePicture capture).after storage = written capture pixels storage

theorem savePicture_after_cases :
    (∀ storage, (savePicture capture).after storage = mkdirs storage) ∨
      capture.IsWritten := by
  rcases savePicture_cases capture with ⟨e, hrun⟩ | ⟨pixels, hrun⟩
  · exact .inl fun storage => by simp [Method.after, hrun]
  · exact .inr ⟨pixels, fun storage => by simp [Method.after, hrun]⟩

theorem savePicture_throws : (savePicture capture).Throws storage := by
  rcases savePicture_cases capture with ⟨e, hrun⟩ | ⟨pixels, hrun⟩
  · exact ⟨e, mkdirs storage, hrun storage⟩
  · exact ⟨.nullPointer, written capture pixels storage, hrun storage⟩

theorem savePicture_folder
    {storage storage' : Storage} (hfolder : storage.folder = storage'.folder) :
    ((savePicture capture).after storage).folder =
      ((savePicture capture).after storage').folder := by
  have hfiles : storage.files = storage'.files := by
    rw [Storage.files, hfolder, Storage.files]
  rcases savePicture_after_cases capture with hafter | ⟨pixels, hafter⟩
  · simp only [hafter, mkdirs, hfiles]
  · simp only [hafter, written, writeFile, mkdirs, Storage.files,
      Option.getD_some, hfolder]

/-- The message of a picture which was written, or the one before. -/
theorem savePicture_snackbar :
    ((savePicture capture).after storage).snackbar = storage.snackbar ∨
      capture.IsWritten ∧
        ((savePicture capture).after storage).snackbar =
          some ("Wrote file: " ++ imageName capture.time) := by
  rcases savePicture_after_cases capture with hafter | hwritten
  · exact .inl (by rw [hafter, mkdirs])
  · refine .inr ⟨hwritten, ?_⟩
    obtain ⟨pixels, hafter⟩ := hwritten
    rw [hafter, written]

def Storage.names (storage : Storage) : List String :=
  storage.files.map StoredFile.name

theorem mem_names_written (pixels : List Pixel) (name : String) :
    name ∈ (written capture pixels storage).names ↔
      name ∈ storage.names ∨ name = imageName capture.time := by
  have hfiles : (written capture pixels storage).files =
      (storage.files.filter fun other =>
        other.name ≠ imageName capture.time) ++
          [⟨imageName capture.time, capture.time, pixels⟩] := rfl
  simp only [Storage.names, hfiles, List.map_append, List.mem_append,
    List.mem_map, List.mem_filter, decide_eq_true_eq, List.mem_singleton]
  constructor
  · intro hname
    rcases hname with ⟨file, ⟨hfile, -⟩, rfl⟩ | ⟨file, rfl, rfl⟩
    · exact .inl ⟨file, hfile, rfl⟩
    · exact .inr rfl
  · intro hname
    by_cases hnew : name = imageName capture.time
    · exact .inr ⟨_, rfl, hnew.symm⟩
    · obtain ⟨file, hfile, rfl⟩ := hname.resolve_right hnew
      exact .inl ⟨file, ⟨hfile, hnew⟩, rfl⟩

/-- No call deletes a picture. -/
theorem names_savePicture
    {name : String} (hname : name ∈ storage.names) :
    name ∈ ((savePicture capture).after storage).names := by
  rcases savePicture_after_cases capture with hafter | ⟨pixels, hafter⟩
  · simpa [hafter, Storage.names, mkdirs, Storage.files] using hname
  · rw [hafter]
    exact (mem_names_written capture storage pixels name).mpr (.inl hname)

end Calls

theorem names_run
    {storage : Storage} {name : String} (hname : name ∈ storage.names)
    (captures : List Capture) :
    name ∈ (storage.run captures).names := by
  induction captures generalizing storage with
  | nil => exact hname
  | cons capture rest ih => exact ih (names_savePicture capture storage hname)

/-- A frame of positive size which fits into an array, and a file which can be
opened. -/
structure Capture.Writes (capture : Capture) : Prop where
  width : 0 < capture.mWidth
  height : 0 < capture.mHeight
  size : capture.mWidth * capture.mHeight < 2 ^ 31
  pixels : capture.pixelData.length = capture.mWidth * capture.mHeight
  opens : capture.opens = true

theorem Capture.Writes.isWritten
    {capture : Capture} (hwrites : capture.Writes) : capture.IsWritten := by
  obtain ⟨bitmap, hconvert, -⟩ := convert_spec hwrites.size hwrites.pixels
  have hcreate : createBitmap bitmap capture.mWidth capture.mHeight =
      .ok bitmap.data := by
    simp [createBitmap, hwrites.width.ne', hwrites.height.ne']
  refine ⟨bitmap.data, fun storage => ?_⟩
  simp [Method.after, savePicture,
    writePicture_run storage hconvert hcreate hwrites.opens, prunePictures_run]

/-- The pictures pile up: whatever was written is there at the end. -/
theorem names_run_of_written
    {captures : List Capture} {capture : Capture}
    (hcapture : capture ∈ captures) (hwritten : capture.IsWritten)
    (storage : Storage) :
    imageName capture.time ∈ (storage.run captures).names := by
  induction captures generalizing storage with
  | nil => simp at hcapture
  | cons first rest ih =>
      rcases List.mem_cons.mp hcapture with hfirst | hrest
      · subst capture
        obtain ⟨pixels, hafter⟩ := hwritten
        have hname : imageName first.time ∈
            ((savePicture first).after storage).names := by
          rw [hafter]
          exact (mem_names_written first storage pixels _).mpr (.inr rfl)
        exact names_run hname rest
      · exact ih hrest _

/-- No call of `SavePicture` completes normally, after whatever calls and from
whatever folder, so that no sequence of calls retains the pictures. -/
theorem savePicture_never_retains
    (start : Storage) (before after : List Capture) (capture : Capture) :
    (savePicture capture).Throws (start.run before) ∧
      ¬ Retains start (before ++ capture :: after) := by
  have hthrows := savePicture_throws capture (start.run before)
  refine ⟨hthrows, ?_⟩
  intro hretains
  obtain ⟨storage, hrun, -⟩ := hretains before capture after rfl
  exact Method.not_throws_of_ok hrun hthrows

def onePixel (time : ℕ) : Capture where
  time := time
  mWidth := 1
  mHeight := 1
  pixelData := [0xff0000ff#32]
  opens := true
  order := id

/-- The pictures are written, but each call fails, and after four calls all
four pictures are there. -/
theorem four_pictures_kept :
    (savePicture (onePixel 1)).Throws ⟨some [], none⟩ ∧
      ((⟨some [], none⟩ : Storage).run
        [onePixel 1, onePixel 2, onePixel 3, onePixel 4]).names =
          ["Img1.png", "Img2.png", "Img3.png", "Img4.png"] ∧
      ¬ Retains ⟨some [], none⟩
        [onePixel 1, onePixel 2, onePixel 3, onePixel 4] := by
  have hthrows := savePicture_throws (onePixel 1) ⟨some [], none⟩
  refine ⟨hthrows, by decide +kernel, ?_⟩
  intro hretains
  obtain ⟨storage, hrun, -⟩ := hretains [] (onePixel 1)
    [onePixel 2, onePixel 3, onePixel 4] rfl
  exact Method.not_throws_of_ok hrun hthrows

/-! ## The file to delete -/

section Pruning

open FirstMaximum

def stampAt (files : List StoredFile) (index : ℕ) : ℤ :=
  (files[index]?.map StoredFile.lastModified).getD 0

theorem stampAt_of_lt
    {files : List StoredFile} {index : ℕ} (hindex : index < files.length) :
    stampAt files index = files[index].lastModified := by
  simp [stampAt, hindex]

/-- The loop replaces its candidate by later files, never by earlier ones. -/
theorem oldestScan_firstMax (first : StoredFile) (rest : List StoredFile) :
    ∃ best : ℕ,
      oldestScan (first :: rest) first.lastModified =
          .ok (.next (stampAt (first :: rest) best, (best : ℤ))) ∧
        IsFirstMax (first :: rest).length (fun _ => True)
          (stampAt (first :: rest)) best := by
  have hloop : Completes (oldestScan (first :: rest) first.lastModified)
      (fun oldest => ∃ best : ℕ,
        oldest = (stampAt (first :: rest) best, (best : ℤ)) ∧
          IsFirstMax (first :: rest).length (fun _ => True)
            (stampAt (first :: rest)) best)
      (fun _ => False) := by
    have hseed : 0 < (first :: rest).length := by simp
    apply forRange_firstMax
      (fun index : ℕ => (stampAt (first :: rest) index, (index : ℤ)))
      hseed le_rfl hseed trivial (by simp)
    intro index best hindex _ _
    simp only [arrayGet_natCast_of_lt hindex, ok_bind, pure_eq_ok,
      ← stampAt_of_lt hindex]
    by_cases hlater : stampAt (first :: rest) best <
        stampAt (first :: rest) index
    · rw [if_pos hlater]
      exact ⟨index, rfl, .inl ⟨trivial, hlater, rfl⟩⟩
    · rw [if_neg hlater]
      exact ⟨best, rfl, .inr ⟨by simpa using hlater, rfl⟩⟩
  rcases hloop with ⟨oldest, hrun, best, holdest, hmax⟩ | ⟨_, _, hfalse⟩
  · subst oldest
    exact ⟨best, hrun, hmax⟩
  · exact hfalse.elim

/-- Pruning a folder which is listed as `files`: the loop ends at `index`, and
`deleted` is the file there. -/
structure Prunes (files : List StoredFile) (stamp : ℤ) (index : ℕ)
    (deleted : StoredFile) (storage : Storage) : Prop where
  scan : ∃ first, arrayGet files 0 = .ok first ∧
    oldestScan files first.lastModified = .ok (.next (stamp, (index : ℤ)))
  file : files[index]? = some deleted
  run : (prunePictures .pokerHands id).run ⟨some files, none⟩ =
    .ok () storage
  kept : storage.files = files.filter fun other => other.name ≠ deleted.name

/-- The index found is that of a file with the least time stamp, and the file
deleted is not newer than any file which is kept. -/
def PrunesOldest (files : List StoredFile) : Prop :=
  ∃ stamp index deleted storage, Prunes files stamp index deleted storage ∧
    (∀ file ∈ files, deleted.lastModified ≤ file.lastModified) ∧
      ∀ kept ∈ storage.files, deleted.lastModified ≤ kept.lastModified

variable {files : List StoredFile} {stamp : ℤ} {index : ℕ}
  {deleted : StoredFile} {storage : Storage}

/-- The end of `SavePicture` as it was meant, with the folder listed. -/
theorem prunePictures_folder_run
    {first oldest : StoredFile} {rest : List StoredFile}
    (hlong : 3 < (first :: rest).length)
    (holdest : oldestFile (first :: rest) first.lastModified = .ok oldest) :
    (prunePictures .pokerHands id).run ⟨some (first :: rest), none⟩ =
      .ok () (deleteFile oldest ⟨some (first :: rest), none⟩) := by
  have hfirst : arrayGet (first :: rest) 0 = .ok first := rfl
  have hlong' : 3 ≤ rest.length := by
    rw [List.length_cons] at hlong
    omega
  simp [prunePictures, Storage.files, listFiles, deref, hfirst, holdest,
    hlong']

theorem exists_prunes (hlong : 3 < files.length) :
    ∃ stamp index deleted storage,
      Prunes files stamp index deleted storage := by
  cases files with
  | nil => simp at hlong
  | cons first rest =>
      obtain ⟨best, hscan, hmax⟩ := oldestScan_firstMax first rest
      have hbest := hmax.lt
      have holdest : oldestFile (first :: rest) first.lastModified =
          .ok (first :: rest)[best] := by
        rw [oldestFile, hscan, afterLoop_next, arrayGet_natCast_of_lt hbest]
      exact ⟨_, best, _, _, ⟨first, rfl, hscan⟩,
        List.getElem?_eq_getElem hbest,
        prunePictures_folder_run hlong holdest, rfl⟩

/-- The file which is deleted is a newest one. -/
theorem Prunes.newest (hprunes : Prunes files stamp index deleted storage) :
    ∀ file ∈ files, file.lastModified ≤ deleted.lastModified := by
  intro file hfile
  obtain ⟨first, hfirst, hscan⟩ := hprunes.scan
  cases files with
  | nil => simp at hfile
  | cons head rest =>
      obtain ⟨best, hscan', hmax⟩ := oldestScan_firstMax head rest
      have hhead : head = first := by
        have heq : (.ok head : Run StoredFile) = .ok first := hfirst
        injection heq
      subst first
      have hbest : best = index := by
        rw [hscan] at hscan'
        injection hscan' with hnext
        injection hnext with hpair
        have hindex : (index : ℤ) = best := (Prod.mk.inj hpair).2
        omega
      subst best
      obtain ⟨i, hi, heq⟩ := List.getElem_of_mem hfile
      have hle := hmax.le i hi trivial
      rw [stampAt_of_lt hi, heq] at hle
      simpa [stampAt, hprunes.file] using hle

theorem prunesOldest_iff (hlong : 3 < files.length) :
    PrunesOldest files ↔
      ∀ file ∈ files, ∀ other ∈ files,
        file.lastModified = other.lastModified := by
  constructor
  · intro holdest file hfile other hother
    obtain ⟨stamp, index, deleted, storage, hprunes, hleast, -⟩ := holdest
    have hsame : ∀ file ∈ files, file.lastModified = deleted.lastModified := by
      intro file hfile
      exact le_antisymm (hprunes.newest file hfile) (hleast file hfile)
    rw [hsame file hfile, hsame other hother]
  · intro hsame
    obtain ⟨stamp, index, deleted, storage, hprunes⟩ := exists_prunes hlong
    have hdeleted : deleted ∈ files := List.mem_of_getElem? hprunes.file
    have hleast : ∀ file ∈ files,
        deleted.lastModified ≤ file.lastModified := by
      intro file hfile
      exact (hsame deleted hdeleted file hfile).le
    refine ⟨stamp, index, deleted, storage, hprunes, hleast, ?_⟩
    intro kept hkept
    rw [hprunes.kept] at hkept
    exact hleast kept (List.mem_filter.mp hkept).1

def picturesAt (times : List ℤ) : List StoredFile :=
  times.zipIdx.map fun entry => ⟨imageName entry.2, entry.1, []⟩

theorem prunesOldest_same_time :
    3 < (picturesAt [7, 7, 7, 7]).length ∧
      PrunesOldest (picturesAt [7, 7, 7, 7]) :=
  ⟨by decide, (prunesOldest_iff (by decide)).mpr (by decide)⟩

/-- Of four pictures taken one after the other the last is deleted. -/
theorem prunesOldest_fails_on_four :
    3 < (picturesAt [1, 2, 3, 4]).length ∧
      oldestScan (picturesAt [1, 2, 3, 4]) 1 = .ok (.next (4, 3)) ∧
      ¬ PrunesOldest (picturesAt [1, 2, 3, 4]) := by
  refine ⟨by decide, by decide, ?_⟩
  intro holdest
  obtain ⟨stamp, index, deleted, storage, hprunes, hleast, -⟩ := holdest
  have hnewest := hprunes.newest ⟨imageName 3, 4, []⟩ (by decide)
  have hleastOldest := hleast ⟨imageName 0, 1, []⟩ (by decide)
  simp only at hnewest hleastOldest
  omega

end Pruning

end Picture
end HighRollers
