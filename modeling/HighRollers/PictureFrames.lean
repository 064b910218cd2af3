import HighRollers.ImageHands
import HighRollers.ListPatterns
import HighRollers.PictureStore

/-!
# Pictures and messages over runs of frames

`onDrawFrame` of the poker activity draws the scene, whatever that ends with,
and counts the frame.  A frame which finds more than a hundred frames counted
takes a picture and starts the count again.  Whatever comes before a frame, its
exceptions are caught.
-/

namespace HighRollers
namespace Poker

open Java
open ListPattern
open Picture

/-- The activity with its counter, and the folder of the pictures. -/
structure App where
  activity : Activity
  folder : Option (List StoredFile)
  capturePictureCount : ℤ

/-- How far the drawing comes: an exception comes before `drawAugmentedImages`,
the camera is not tracking, or the images are drawn. -/
inductive Scene
  | failed
  | paused
  | tracking (frame : Frame) (values : List (AugmentedImage × ℕ))

/-- One call of `onDrawFrame`: the scene, if there is a session, and what a
picture taken in it would show. -/
structure SceneUpdate where
  scene : Option Scene
  capture : Capture

namespace App

def onCreate (folder : Option (List StoredFile)) : App where
  activity := Poker.onCreate
  folder := folder
  capturePictureCount := 0

def withActivity (activity : Activity) (app : App) : App :=
  { app with activity := activity }

/-- `SavePicture` writes its message to the same `messageSnackbarHelper`. -/
def storage (app : App) : Storage where
  folder := app.folder
  snackbar := app.activity.snackbar

def withStorage (storage : Storage) (app : App) : App :=
  { app with
    activity := { app.activity with snackbar := storage.snackbar }
    folder := storage.folder }

def withCount (count : ℤ) (app : App) : App :=
  { app with capturePictureCount := count }

end App

/-- The first `try` block; the result is `false` where it returns. -/
def drawScene : Scene → Method Activity Bool
  | .failed => throw .external
  | .paused => return false
  | .tracking frame values => do
      drawAugmentedImages frame values
      return true

def countFrame (capture : Capture) : Method App Unit := do
  let count := (← get).capturePictureCount
  if count > 100 then
    tryCatch
      (do
        modify (App.withCount 0)
        (savePicture capture).onPart App.storage App.withStorage)
      fun _ => return
  else
    modify (App.withCount (count + 1))

def onDrawFrame (update : SceneUpdate) : Method App Unit := do
  match update.scene with
  | none => return
  | some scene =>
      let counted ← tryCatch
        ((drawScene scene).onPart App.activity App.withActivity)
        fun _ => return true
      if counted then
        countFrame update.capture

def App.run (app : App) (updates : List SceneUpdate) : App :=
  updates.foldl (fun current update => (onDrawFrame update).after current) app

/-! ## One frame -/

/-- The picture which a frame counts towards. -/
def SceneUpdate.counted (update : SceneUpdate) : Option Capture :=
  match update.scene with
  | none => none
  | some .paused => none
  | some _ => some update.capture

/-- What counting a frame leaves behind. -/
def App.counted (capture : Capture) (app : App) : App :=
  if app.capturePictureCount > 100 then
    (app.withCount 0).withStorage ((savePicture capture).after app.storage)
  else
    app.withCount (app.capturePictureCount + 1)

theorem countFrame_run (capture : Capture) (app : App) :
    (countFrame capture).run app = .ok () (app.counted capture) := by
  unfold countFrame App.counted
  rw [EStateM.run_bind, run_fields]
  dsimp only
  split_ifs with hcount
  · have hstorage : (app.withCount 0).storage = app.storage := rfl
    rw [run_catch, EStateM.run_bind, run_assign]
    dsimp only
    rw [Method.run_onPart, hstorage, Method.after]
    cases (savePicture capture).run app.storage with
    | ok value storage => rfl
    | error e storage => rfl
  · rfl

/-- The scene as it is drawn. -/
def App.drawn (scene : Scene) (app : App) : App :=
  app.withActivity ((drawScene scene).after app.activity)

theorem drawScene_tracking_after
    (frame : Frame) (values : List (AugmentedImage × ℕ))
    (activity : Activity) :
    (drawScene (.tracking frame values)).after activity =
      (drawAugmentedImages frame values).after activity := by
  unfold drawScene Method.after
  rw [EStateM.run_bind]
  cases (drawAugmentedImages frame values).run activity with
  | ok value drawn => rfl
  | error e drawn => rfl

theorem drawScene_tracking_value
    {frame : Frame} {values : List (AugmentedImage × ℕ)}
    {activity after : Activity} {counted : Bool}
    (hrun : (drawScene (.tracking frame values)).run activity =
      .ok counted after) :
    counted = true := by
  rw [drawScene, EStateM.run_bind] at hrun
  cases hdraw : (drawAugmentedImages frame values).run activity with
  | error e drawn => simp [hdraw] at hrun
  | ok value drawn =>
      simp [hdraw] at hrun
      exact hrun.1

/-- Every exception is caught; a paused camera ends the frame early. -/
theorem onDrawFrame_run (update : SceneUpdate) (app : App) :
    (onDrawFrame update).run app =
      .ok () (match update.scene with
        | none => app
        | some .paused => app
        | some scene => (app.drawn scene).counted update.capture) := by
  unfold onDrawFrame
  cases hscene : update.scene with
  | none => rfl
  | some scene =>
      dsimp only
      rw [EStateM.run_bind, run_catch, Method.run_onPart]
      cases scene with
      | failed => exact countFrame_run update.capture (app.drawn .failed)
      | paused => rfl
      | tracking frame values =>
          have hcounted := countFrame_run update.capture
            (app.drawn (.tracking frame values))
          simp only [App.drawn, Method.after] at hcounted ⊢
          cases hrun : (drawScene (.tracking frame values)).run
              app.activity with
          | error e activity => simpa [hrun] using hcounted
          | ok counted activity =>
              have htrue := drawScene_tracking_value hrun
              simpa [hrun, htrue] using hcounted

theorem onDrawFrame_cases (update : SceneUpdate) (app : App) :
    (update.counted = none ∧ (onDrawFrame update).after app = app) ∨
      ∃ scene, update.scene = some scene ∧
        update.counted = some update.capture ∧
        (onDrawFrame update).after app =
          (app.drawn scene).counted update.capture := by
  rw [Method.after_eq_of_ok (onDrawFrame_run update app)]
  unfold SceneUpdate.counted
  cases update.scene with
  | none => exact .inl ⟨rfl, rfl⟩
  | some scene =>
      cases scene with
      | failed => exact .inr ⟨.failed, rfl, rfl, rfl⟩
      | paused => exact .inl ⟨rfl, rfl⟩
      | tracking frame values =>
          exact .inr ⟨.tracking frame values, rfl, rfl, rfl⟩

/-! ## The pictures of a run -/

def countedFrames (updates : List SceneUpdate) : List Capture :=
  updates.filterMap SceneUpdate.counted

def pictures (updates : List SceneUpdate) : List Capture :=
  everyNth 102 (countedFrames updates)

/-- The counter and the folder after the given frames. -/
structure Counts (folder : Option (List StoredFile))
    (updates : List SceneUpdate) (app : App) : Prop where
  count : app.capturePictureCount =
    ((countedFrames updates).length % 102 : ℕ)
  folder : app.folder =
    ((⟨folder, none⟩ : Storage).run (pictures updates)).folder

section Counting

variable {folder : Option (List StoredFile)} {updates : List SceneUpdate}
  {app : App}

theorem pictures_of_none
    {update : SceneUpdate} (hnone : update.counted = none) :
    countedFrames (updates ++ [update]) = countedFrames updates ∧
      pictures (updates ++ [update]) = pictures updates := by
  have hframes : countedFrames (updates ++ [update]) =
      countedFrames updates := by
    simp [countedFrames, hnone]
  exact ⟨hframes, by rw [pictures, hframes, pictures]⟩

/-- A frame which finds more than a hundred frames counted is the last one of
its hundred and two. -/
theorem Counts.pictures_concat
    (hcounts : Counts folder updates app) {update : SceneUpdate}
    {capture : Capture} (hsome : update.counted = some capture) :
    pictures (updates ++ [update]) =
      pictures updates ++
        if app.capturePictureCount > 100 then [capture] else [] := by
  have hframes : countedFrames (updates ++ [update]) =
      countedFrames updates ++ [capture] := by
    simp [countedFrames, hsome]
  have hcount := hcounts.count
  have hlast : ((countedFrames updates).length + 1) % 102 = 0 ↔
      app.capturePictureCount > 100 := by
    omega
  rw [pictures, hframes, everyNth_concat, pictures]
  simp only [hlast]

theorem Counts.of_none
    (hcounts : Counts folder updates app) {update : SceneUpdate}
    (hnone : update.counted = none) :
    Counts folder (updates ++ [update]) app := by
  obtain ⟨hframes, hpictures⟩ := pictures_of_none hnone
  exact ⟨by rw [hframes, hcounts.count], by rw [hpictures, hcounts.folder]⟩

theorem Counts.drawn (hcounts : Counts folder updates app) (scene : Scene) :
    Counts folder updates (app.drawn scene) :=
  ⟨hcounts.count, hcounts.folder⟩

theorem Counts.counted
    (hcounts : Counts folder updates app) {update : SceneUpdate}
    {capture : Capture} (hsome : update.counted = some capture) :
    Counts folder (updates ++ [update]) (app.counted capture) := by
  have hlength : (countedFrames (updates ++ [update])).length =
      (countedFrames updates).length + 1 := by
    simp [countedFrames, hsome]
  have hpictures := hcounts.pictures_concat hsome
  have hcount := hcounts.count
  unfold App.counted
  split_ifs with hfull
  · rw [if_pos hfull] at hpictures
    constructor
    · have hlast : ((countedFrames updates).length + 1) % 102 = 0 := by omega
      rw [hlength, hlast]
      rfl
    · rw [hpictures, Storage.run, List.foldl_append]
      exact savePicture_folder capture hcounts.folder
  · rw [if_neg hfull, List.append_nil] at hpictures
    constructor
    · rw [hlength, App.withCount]
      dsimp only
      omega
    · rw [hpictures]
      exact hcounts.folder

theorem Counts.step
    (hcounts : Counts folder updates app) (update : SceneUpdate) :
    Counts folder (updates ++ [update]) ((onDrawFrame update).after app) := by
  rcases onDrawFrame_cases update app with
    ⟨hnone, hafter⟩ | ⟨scene, -, hsome, hafter⟩
  · rw [hafter]
    exact hcounts.of_none hnone
  · rw [hafter]
    exact (hcounts.drawn scene).counted hsome

end Counting

theorem App.run_concat
    (app : App) (updates : List SceneUpdate) (update : SceneUpdate) :
    app.run (updates ++ [update]) =
      (onDrawFrame update).after (app.run updates) := by
  simp [App.run]

theorem counts_run
    (folder : Option (List StoredFile)) (updates : List SceneUpdate) :
    Counts folder updates ((App.onCreate folder).run updates) := by
  induction updates using List.reverseRecOn with
  | nil => exact ⟨rfl, rfl⟩
  | append_singleton updates update ih =>
      rw [App.run_concat]
      exact ih.step update

theorem Counts.names
    {folder : Option (List StoredFile)} {updates : List SceneUpdate}
    {app : App} (hcounts : Counts folder updates app) :
    app.storage.names =
      ((⟨folder, none⟩ : Storage).run (pictures updates)).names := by
  rw [Storage.names, Storage.names, Storage.files, Storage.files]
  exact congrArg _ (congrArg (Option.getD · []) hcounts.folder)

/-- A picture is taken in every hundred and second of the frames counted, and
the pictures which could be written are all still there. -/
theorem pictures_of_run
    (folder : Option (List StoredFile)) (updates : List SceneUpdate) :
    let app := (App.onCreate folder).run updates
    app.capturePictureCount = ((countedFrames updates).length % 102 : ℕ) ∧
      (pictures updates).length = (countedFrames updates).length / 102 ∧
      app.folder =
        ((⟨folder, none⟩ : Storage).run (pictures updates)).folder ∧
      (∀ name ∈ (⟨folder, none⟩ : Storage).names,
        name ∈ app.storage.names) ∧
      ∀ position capture,
        (countedFrames updates)[position]? = some capture →
          (position + 1) % 102 = 0 → capture.Writes →
            imageName capture.time ∈ app.storage.names := by
  intro app
  have hcounts := counts_run folder updates
  refine ⟨hcounts.count, length_everyNth 102 _, hcounts.folder, ?_, ?_⟩
  · intro name hname
    rw [hcounts.names]
    exact names_run hname (pictures updates)
  · intro position capture hcapture hposition hwrites
    rw [hcounts.names]
    exact names_run_of_written (mem_everyNth hcapture hposition)
      hwrites.isWritten _

/-! ## The messages of a run -/

/-- No card has been counted, no hand named and no model drawn, and the message
is one of those allowed. -/
structure Silent (allowed : String → Prop) (activity : Activity) : Prop where
  pokerCards : activity.pokerCards = none
  pokerHand : activity.pokerHand = none
  drawn : activity.drawn = []
  snackbar : ∀ text ∈ activity.snackbar, allowed text

section Messages

variable {allowed allowed' : String → Prop} {activity : Activity} {app : App}

theorem Silent.mono
    (hsilent : Silent allowed activity)
    (himp : ∀ text, allowed text → allowed' text) :
    Silent allowed' activity :=
  { hsilent with
    snackbar := fun text htext => himp text (hsilent.snackbar text htext) }

theorem Silent.after_showMessage
    (hsilent : Silent allowed activity) {text : String}
    (htext : allowed text) :
    Silent allowed (showMessage text activity) := by
  refine ⟨hsilent.pokerCards, hsilent.pokerHand, hsilent.drawn, ?_⟩
  intro shown hshown
  rw [showMessage, Option.mem_some_iff] at hshown
  exact hshown ▸ htext

theorem Silent.after_updateImage
    (hsilent : Silent allowed activity) {frame : Frame}
    {image : AugmentedImage}
    (hpaused : frame.trackingState image.index = .paused →
      allowed ("Detected Image " ++ toString image.index)) :
    Silent allowed ((updateImage frame image).after activity) := by
  by_cases hfails : Fails frame activity image
  · rw [Method.after, updateImage_run_of_fails hfails]
    exact { hsilent with }
  · rw [Method.after_eq_of_ok (updateImage_run hfails)]
    unfold imageUpdated
    cases hstate : frame.trackingState image.index with
    | paused => exact hsilent.after_showMessage (hpaused hstate)
    | tracking =>
        dsimp only
        split_ifs
        · exact { hsilent with }
        · exact { hsilent with }
    | stopped => exact { hsilent with }

theorem Silent.after_updateImages
    (hsilent : Silent allowed activity) {frame : Frame}
    (hpaused : ∀ image ∈ frame.updated,
      frame.trackingState image.index = .paused →
        allowed ("Detected Image " ++ toString image.index)) :
    Silent allowed ((updateImages frame).after activity) := by
  have hkeeps : (updateImages frame).Keeps (Preserves (Silent allowed)) := by
    apply forEach_keeps
    intro image himage current hcurrent
    exact hcurrent.after_updateImage (hpaused image himage)
  exact hkeeps activity hsilent

end Messages

/-- An image of one of the frames is detected but not tracked. -/
def Detects (updates : List SceneUpdate) (text : String) : Prop :=
  ∃ update ∈ updates, ∃ frame values image,
    update.scene = some (.tracking frame values) ∧ image ∈ frame.updated ∧
      frame.trackingState image.index = .paused ∧
      text = "Detected Image " ++ toString image.index

/-- A message of the frames: of an image, or of a picture written. -/
def Shown (updates : List SceneUpdate) (text : String) : Prop :=
  Detects updates text ∨
    ∃ capture ∈ pictures updates, capture.IsWritten ∧
      text = "Wrote file: " ++ imageName capture.time

section Shown

variable {folder : Option (List StoredFile)} {updates : List SceneUpdate}
  {app : App} {update : SceneUpdate}

theorem Counts.mem_pictures_concat
    (hcounts : Counts folder updates app) {capture : Capture}
    (hmem : capture ∈ pictures updates) :
    capture ∈ pictures (updates ++ [update]) := by
  cases hcounted : update.counted with
  | none => rwa [(pictures_of_none hcounted).2]
  | some last =>
      rw [hcounts.pictures_concat hcounted]
      exact List.mem_append_left _ hmem

theorem Counts.shown_concat
    (hcounts : Counts folder updates app) {text : String}
    (hshown : Shown updates text) :
    Shown (updates ++ [update]) text := by
  rcases hshown with ⟨earlier, hearlier, hdetects⟩ |
    ⟨capture, hcapture, hwritten⟩
  · exact .inl ⟨earlier, List.mem_append_left _ hearlier, hdetects⟩
  · exact .inr ⟨capture, hcounts.mem_pictures_concat hcapture, hwritten⟩

theorem Silent.after_drawn
    {scene : Scene} (hscene : update.scene = some scene)
    (hmem : update ∈ updates)
    (hsilent : Silent (Shown updates) app.activity) :
    Silent (Shown updates) (app.drawn scene).activity := by
  cases scene with
  | failed => exact hsilent
  | paused => exact hsilent
  | tracking frame values =>
      have hafter : (app.drawn (.tracking frame values)).activity =
          (updateImages frame).after app.activity :=
        (drawScene_tracking_after frame values app.activity).trans
          (drawAugmentedImages_after_null frame values hsilent.pokerCards)
      rw [hafter]
      apply hsilent.after_updateImages
      intro image himage hpaused
      exact .inl ⟨update, hmem, frame, values, image, hscene, himage, hpaused,
        rfl⟩

theorem Silent.after_counted
    (hpicture : app.capturePictureCount > 100 →
      update.capture ∈ pictures updates)
    (hsilent : Silent (Shown updates) app.activity) :
    Silent (Shown updates) (app.counted update.capture).activity := by
  unfold App.counted
  split_ifs with hfull
  · refine ⟨hsilent.pokerCards, hsilent.pokerHand, hsilent.drawn, ?_⟩
    intro text htext
    change text ∈ ((savePicture update.capture).after app.storage).snackbar
      at htext
    rcases savePicture_snackbar update.capture app.storage with
      hsame | ⟨hwritten, hwrote⟩
    · rw [hsame] at htext
      exact hsilent.snackbar text htext
    · rw [hwrote, Option.mem_some_iff] at htext
      exact .inr ⟨update.capture, hpicture hfull, hwritten, htext.symm⟩
  · exact hsilent

theorem Silent.step
    (hsilent : Silent (Shown updates) app.activity)
    (hcounts : Counts folder updates app) (update : SceneUpdate) :
    Silent (Shown (updates ++ [update]))
      ((onDrawFrame update).after app).activity := by
  have hearlier : Silent (Shown (updates ++ [update])) app.activity :=
    hsilent.mono fun text hshown => hcounts.shown_concat hshown
  rcases onDrawFrame_cases update app with
    ⟨-, hafter⟩ | ⟨scene, hscene, hsome, hafter⟩
  · rw [hafter]
    exact hearlier
  · have hdrawn := hearlier.after_drawn hscene (by simp)
    rw [hafter]
    apply hdrawn.after_counted
    intro hfull
    rw [(hcounts.drawn scene).pictures_concat hsome, if_pos hfull]
    exact List.mem_append_right _ List.mem_cons_self

end Shown

theorem silent_run
    (folder : Option (List StoredFile)) (updates : List SceneUpdate) :
    Silent (Shown updates) ((App.onCreate folder).run updates).activity := by
  induction updates using List.reverseRecOn with
  | nil => exact ⟨rfl, rfl, rfl, by simp [App.run, App.onCreate, onCreate]⟩
  | append_singleton updates update ih =>
      rw [App.run_concat]
      exact ih.step (counts_run folder updates) update

theorem rankToString_head (hand : Hand) :
    hand.rankToString.toList.head? ∈
      [some 'F', some 'S', some 'T', some 'P', some 'H'] := by
  unfold Hand.rankToString
  cases hand.rank <;> decide

theorem Shown.ne_rankToString
    {updates : List SceneUpdate} {text : String} (hshown : Shown updates text)
    (hand : Hand) :
    text ≠ hand.rankToString := by
  intro htext
  have hhead := rankToString_head hand
  rw [← htext] at hhead
  rcases hshown with ⟨_, -, _, _, _, -, -, -, rfl⟩ | ⟨_, -, -, rfl⟩
  · rw [String.toList_append] at hhead
    simp at hhead
  · rw [String.toList_append] at hhead
    simp at hhead

/-- In no run of frames is a hand announced or a card drawn: the messages are
those of images which are not tracked, and of pictures which were taken and
written and are still in the folder. -/
theorem no_hand_shown
    (folder : Option (List StoredFile)) (updates : List SceneUpdate) :
    let app := (App.onCreate folder).run updates
    app.activity.pokerHand = none ∧ app.activity.drawn = [] ∧
      (∀ text ∈ app.activity.snackbar, Detects updates text ∨
        ∃ capture ∈ pictures updates, capture.IsWritten ∧
          imageName capture.time ∈ app.storage.names ∧
          text = "Wrote file: " ++ imageName capture.time) ∧
      ∀ hand : Hand,
        app.activity.snackbar ≠ some hand.rankToString := by
  intro app
  have hsilent := silent_run folder updates
  have hcounts := counts_run folder updates
  refine ⟨hsilent.pokerHand, hsilent.drawn, ?_, ?_⟩
  · intro text htext
    rcases hsilent.snackbar text htext with
      hdetects | ⟨capture, hcapture, hwritten, rfl⟩
    · exact .inl hdetects
    · refine .inr ⟨capture, hcapture, hwritten, ?_, rfl⟩
      rw [hcounts.names]
      exact names_run_of_written hcapture hwritten _
  · intro hand hsnackbar
    exact (hsilent.snackbar _ hsnackbar).ne_rankToString hand rfl

end Poker
end HighRollers
