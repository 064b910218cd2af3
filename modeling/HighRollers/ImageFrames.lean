import HighRollers.ArCore
import HighRollers.HandRank
import HighRollers.ImageNames
import HighRollers.ImageRenderer

/-!
# Frames of the poker activity

`drawAugmentedImages` runs once in every frame.  It first brings
`augmentedImageMap` up to date with the tracking states of the frame; then it
goes through the map, reads a card off the name of every image which is
tracked, appends it to `pokerCards`, draws the image, and announces the hand
when five cards have been collected.
-/

namespace HighRollers
namespace Poker

open Java

/-! ## The map of images -/

/-- A map from the index of an image to the image and its anchor. -/
structure ImageMap where
  entries : List (AugmentedImage × ℕ)
  nodup : (entries.map fun entry => entry.1.index).Nodup

namespace ImageMap

def empty : ImageMap where
  entries := []
  nodup := List.nodup_nil

def get (map : ImageMap) (index : ℤ) : Option (AugmentedImage × ℕ) :=
  map.entries.find? fun entry => entry.1.index = index

def containsKey (map : ImageMap) (index : ℤ) : Bool :=
  (map.get index).isSome

def remove (map : ImageMap) (index : ℤ) : ImageMap where
  entries := map.entries.filter fun entry => entry.1.index ≠ index
  nodup := map.nodup.sublist (List.filter_sublist.map _)

theorem containsKey_iff (map : ImageMap) (index : ℤ) :
    map.containsKey index = true ↔
      ∃ entry ∈ map.entries, entry.1.index = index := by
  simp [containsKey, get]

theorem containsKey_remove_iff (map : ImageMap) (index index' : ℤ) :
    (map.remove index).containsKey index' = true ↔
      map.containsKey index' = true ∧ index' ≠ index := by
  simp only [containsKey_iff, remove, List.mem_filter, decide_eq_true_eq]
  constructor
  · intro hexists
    rcases hexists with ⟨entry, ⟨hmem, hne⟩, rfl⟩
    exact ⟨⟨entry, hmem, rfl⟩, hne⟩
  · intro hboth
    rcases hboth with ⟨⟨entry, hmem, rfl⟩, hne⟩
    exact ⟨entry, ⟨hmem, hne⟩, rfl⟩

def put (map : ImageMap) (image : AugmentedImage) (anchor : ℕ) :
    ImageMap where
  entries := (map.remove image.index).entries ++ [(image, anchor)]
  nodup := by
    have hremoved := (map.remove image.index).nodup
    rw [List.map_append, List.nodup_append]
    refine ⟨hremoved, by simp, ?_⟩
    intro index hindex other hother
    have hne : index ≠ image.index := by
      simp only [List.mem_map, remove, List.mem_filter,
        decide_eq_true_eq] at hindex
      rcases hindex with ⟨entry, ⟨_, hkept⟩, rfl⟩
      exact hkept
    have heq : other = image.index := by simpa using hother
    rwa [heq]

theorem containsKey_put_iff
    (map : ImageMap) (image : AugmentedImage) (anchor : ℕ) (index : ℤ) :
    (map.put image anchor).containsKey index = true ↔
      index = image.index ∨ map.containsKey index = true := by
  have hremoved := containsKey_remove_iff map image.index index
  rw [containsKey_iff] at hremoved
  rw [containsKey_iff]
  simp only [put, List.mem_append, List.mem_singleton]
  constructor
  · intro hexists
    rcases hexists with ⟨entry, hold | hnew, hindex⟩
    · exact .inr (hremoved.mp ⟨entry, hold, hindex⟩).1
    · subst entry
      exact .inl hindex.symm
  · intro hcases
    by_cases hindex : index = image.index
    · exact ⟨(image, anchor), .inr rfl, hindex.symm⟩
    · have hkey : map.containsKey index = true :=
        hcases.resolve_left hindex
      obtain ⟨entry, hmem, heq⟩ := hremoved.mpr ⟨hkey, hindex⟩
      exact ⟨entry, .inl hmem, heq⟩

end ImageMap

/-! ## The activity -/

/-- A card of `pokerCards`.  The program keeps only the card; the index says
from which image it was read. -/
structure CountedCard where
  card : Card
  image : ℤ
  deriving DecidableEq, Repr

structure Activity where
  augmentedImageMap : ImageMap
  pokerCards : Option (List CountedCard)
  pokerHand : Option Hand
  /-- The text of `messageSnackbarHelper`. -/
  snackbar : Option String
  fitToScanVisible : Bool
  created : ℕ
  drawn : List Drawing

/-- The fields before the first frame.  No statement of the program assigns
`pokerCards`. -/
def onCreate : Activity where
  augmentedImageMap := ImageMap.empty
  pokerCards := none
  pokerHand := none
  snackbar := none
  fitToScanVisible := true
  created := 0
  drawn := []

structure Frame where
  updated : List AugmentedImage
  /-- The state of the image with a given index during the frame. -/
  trackingState : ℤ → TrackingState
  /-- Whether `createAnchor` returns for the image with a given index;
  otherwise it throws. -/
  createsAnchor : ℤ → Bool

def showMessage (text : String) (activity : Activity) : Activity :=
  { activity with snackbar := some text }

def hideFitToScan (activity : Activity) : Activity :=
  { activity with fitToScanVisible := false }

def putImage (image : AugmentedImage) (activity : Activity) : Activity :=
  { activity with
    augmentedImageMap :=
      activity.augmentedImageMap.put image activity.created
    created := activity.created + 1 }

def removeImage (index : ℤ) (activity : Activity) : Activity :=
  { activity with
    augmentedImageMap := activity.augmentedImageMap.remove index }

/-- One iteration of the first loop. -/
def updateImage (frame : Frame) (image : AugmentedImage) :
    Method Activity Unit :=
  match frame.trackingState image.index with
  | .paused =>
      modify (showMessage ("Detected Image " ++ toString image.index))
  | .tracking => do
      modify hideFitToScan
      if !(← get).augmentedImageMap.containsKey image.index then
        if frame.createsAnchor image.index then
          modify (putImage image)
        else
          throw .external
  | .stopped => modify (removeImage image.index)

def updateImages (frame : Frame) : Method Activity Unit :=
  forEach (updateImage frame) frame.updated

def cardType (tempIndex : ℤ) : ℤ :=
  if 0 ≤ tempIndex ∧ tempIndex ≤ 8 then 3
  else if tempIndex ≤ 14 then 2
  else if tempIndex ≤ 17 then 1
  else 4

/-- The two statements which all four branches on the index share. -/
def countCard (image : AugmentedImage) : Method Activity Unit := do
  let newCard ← call (parseCard image.name)
  let cards ← call (deref (← get).pokerCards)
  modify fun activity =>
    { activity with
      pokerCards := some (cards ++ [⟨newCard, image.index⟩]) }

def arrListToArr (cards : List CountedCard) : Run CardArray :=
  fillFrom (List.replicate cards.length none) 0
    (cards.map fun counted => some counted.card)

def announceHand : Method Activity Unit := do
  let cards ← call (deref (← get).pokerCards)
  if cards.length = 5 then
    let temp ← call (arrListToArr cards)
    let hand ← call (Hand.create temp)
    modify fun activity => { activity with pokerHand := some hand }
    modify (showMessage hand.rankToString)

def recordDrawing (drawing : Drawing) (activity : Activity) : Activity :=
  { activity with drawn := activity.drawn ++ [drawing] }

def showCard (image : AugmentedImage) (centerAnchor : ℕ) :
    Method Activity Unit := do
  countCard image
  draw recordDrawing image centerAnchor (cardType image.index)
  announceHand

/-- The second loop, over the values of the map in the order in which the map
yields them. -/
def drawLoop (frame : Frame) :
    List (AugmentedImage × ℕ) → Method Activity Unit
  | [] => pure ()
  | pair :: rest => do
      let entry ←
        call (deref ((← get).augmentedImageMap.get pair.1.index))
      if frame.trackingState pair.1.index = .tracking then
        showCard pair.1 entry.2
      drawLoop frame rest

def drawAugmentedImages (frame : Frame)
    (values : List (AugmentedImage × ℕ)) : Method Activity Unit := do
  updateImages frame
  drawLoop frame values

/-- The map as the first loop leaves it. -/
def imageMap (frame : Frame) (activity : Activity) : ImageMap :=
  ((updateImages frame).after activity).augmentedImageMap

/-- `values` is a possible iteration over the map of the frame. -/
def Iterates (frame : Frame) (activity : Activity)
    (values : List (AugmentedImage × ℕ)) : Prop :=
  values.Perm (imageMap frame activity).entries

/-! ## The first loop -/

/-- The iteration for this image throws: it is tracked and not in the map, and
no anchor can be created for it. -/
def Fails (frame : Frame) (activity : Activity) (image : AugmentedImage) :
    Prop :=
  frame.trackingState image.index = .tracking ∧
    activity.augmentedImageMap.containsKey image.index = false ∧
    frame.createsAnchor image.index = false

instance (frame : Frame) (activity : Activity) :
    DecidablePred (Fails frame activity) :=
  fun _ => inferInstanceAs (Decidable (_ ∧ _ ∧ _))

/-- The first loop gets to its end. -/
def CreatesAnchors (frame : Frame) (activity : Activity) : Prop :=
  ∀ image ∈ frame.updated, ¬ Fails frame activity image

instance (frame : Frame) (activity : Activity) :
    Decidable (CreatesAnchors frame activity) :=
  inferInstanceAs (Decidable (∀ image ∈ frame.updated, _))

/-- The images whose iterations are completed. -/
def reached (frame : Frame) (activity : Activity) : List AugmentedImage :=
  frame.updated.takeWhile fun image => ¬ Fails frame activity image

/-- The image is reported as stopped before anything fails. -/
def StopsNow (frame : Frame) (activity : Activity) (index : ℤ) : Prop :=
  frame.trackingState index = .stopped ∧
    ∃ image ∈ reached frame activity, image.index = index

/-- What a completed iteration does. -/
def imageUpdated (frame : Frame) (image : AugmentedImage)
    (activity : Activity) : Activity :=
  match frame.trackingState image.index with
  | .paused => showMessage ("Detected Image " ++ toString image.index) activity
  | .tracking =>
      if activity.augmentedImageMap.containsKey image.index then
        hideFitToScan activity
      else putImage image (hideFitToScan activity)
  | .stopped => removeImage image.index activity

section FirstLoop

variable {frame : Frame} {activity : Activity}

theorem updateImage_run
    {image : AugmentedImage} (hcreates : ¬ Fails frame activity image) :
    (updateImage frame image).run activity =
      .ok () (imageUpdated frame image activity) := by
  unfold updateImage imageUpdated
  unfold Fails at hcreates
  cases hstate : frame.trackingState image.index with
  | paused => rfl
  | tracking =>
      have hsame : (hideFitToScan activity).augmentedImageMap =
          activity.augmentedImageMap := rfl
      cases hkey : activity.augmentedImageMap.containsKey image.index with
      | true => simp [hsame, hkey]
      | false =>
          have hanchor : frame.createsAnchor image.index = true := by
            simpa [hstate, hkey] using hcreates
          simp [hsame, hkey, hanchor]
  | stopped => rfl

theorem updateImage_run_of_fails
    {image : AugmentedImage} (hfails : Fails frame activity image) :
    (updateImage frame image).run activity =
      .error .external (hideFitToScan activity) := by
  rcases hfails with ⟨hstate, hkey, hanchor⟩
  have hsame : (hideFitToScan activity).augmentedImageMap =
      activity.augmentedImageMap := rfl
  simp [updateImage, hstate, hsame, hkey, hanchor]

theorem containsKey_imageUpdated_iff
    (frame : Frame) (image : AugmentedImage) (activity : Activity)
    (index : ℤ) :
    (imageUpdated frame image activity).augmentedImageMap.containsKey index =
        true ↔
      (frame.trackingState index = .tracking ∧ image.index = index) ∨
        activity.augmentedImageMap.containsKey index = true ∧
          ¬ (frame.trackingState index = .stopped ∧ image.index = index) := by
  unfold imageUpdated
  by_cases hindex : image.index = index
  · subst index
    cases hstate : frame.trackingState image.index with
    | paused => simp [showMessage]
    | tracking =>
        by_cases hkey :
            activity.augmentedImageMap.containsKey image.index = true
        · simp [hkey, hideFitToScan]
        · simp [hkey, putImage, ImageMap.containsKey_put_iff]
    | stopped => simp [removeImage, ImageMap.containsKey_remove_iff]
  · have hne : index ≠ image.index := fun heq => hindex heq.symm
    cases frame.trackingState image.index with
    | paused => simp [showMessage, hindex]
    | tracking =>
        by_cases hkey :
            activity.augmentedImageMap.containsKey image.index = true
        · simp [hkey, hindex, hideFitToScan]
        · simp [hkey, hindex, hne, putImage, hideFitToScan,
            ImageMap.containsKey_put_iff]
    | stopped =>
        simp [hindex, hne, removeImage, ImageMap.containsKey_remove_iff]

/-- An image without an anchor stays out of the map during the loop. -/
theorem fails_imageUpdated_iff
    {image : AugmentedImage} (hcreates : ¬ Fails frame activity image)
    (other : AugmentedImage) :
    Fails frame (imageUpdated frame image activity) other ↔
      Fails frame activity other := by
  have hkey := containsKey_imageUpdated_iff frame image activity other.index
  unfold Fails at hcreates ⊢
  constructor
  · intro hother
    rcases hother with ⟨hstate, hout, hanchor⟩
    refine ⟨hstate, ?_, hanchor⟩
    by_contra hin
    have hkept := hkey.mpr (.inr ⟨by simpa using hin, by simp [hstate]⟩)
    rw [hout] at hkept
    contradiction
  · intro hother
    rcases hother with ⟨hstate, hout, hanchor⟩
    refine ⟨hstate, ?_, hanchor⟩
    by_contra hin
    rcases hkey.mp (by simpa using hin) with ⟨-, hindex⟩ | ⟨hold, -⟩
    · rw [← hindex] at hstate hout hanchor
      exact hcreates ⟨hstate, hout, hanchor⟩
    · rw [hout] at hold
      contradiction

theorem updateImages_run (frame : Frame) (activity : Activity) :
    (updateImages frame).run activity =
      match frame.updated.find? fun image => Fails frame activity image with
      | none => .ok () (frame.updated.foldl
          (fun current image => imageUpdated frame image current) activity)
      | some _ => .error .external (hideFitToScan
          ((reached frame activity).foldl
            (fun current image => imageUpdated frame image current)
            activity)) := by
  have hrun := run_forEach
    (fun image state (hcreates : ¬ Fails frame state image) =>
      updateImage_run hcreates)
    (fun image state hfails => updateImage_run_of_fails hfails)
    (fun image state hcreates other => fails_imageUpdated_iff hcreates other)
    frame.updated activity
  rw [updateImages, hrun]
  cases frame.updated.find? fun image => Fails frame activity image with
  | none => rfl
  | some image => rfl

theorem updateImages_run_of_creates
    (hcreates : CreatesAnchors frame activity) :
    (updateImages frame).run activity =
      .ok () ((updateImages frame).after activity) := by
  have hfind : frame.updated.find? (fun image => Fails frame activity image) =
      none := by
    rw [List.find?_eq_none]
    intro image himage
    simpa using hcreates image himage
  rw [Method.after, updateImages_run, hfind]

theorem updateImages_throws (hfails : ¬ CreatesAnchors frame activity) :
    (updateImages frame).Throws activity := by
  simp only [CreatesAnchors, not_forall, not_not] at hfails
  obtain ⟨image, himage, hfails⟩ := hfails
  have hsome : (frame.updated.find? fun image =>
      Fails frame activity image).isSome = true := by
    rw [List.find?_isSome]
    exact ⟨image, himage, by simpa using hfails⟩
  obtain ⟨first, hfirst⟩ := Option.isSome_iff_exists.mp hsome
  have hrun := updateImages_run frame activity
  rw [hfirst] at hrun
  exact ⟨_, _, hrun⟩

theorem reached_of_creates (hcreates : CreatesAnchors frame activity) :
    reached frame activity = frame.updated := by
  rw [reached, List.takeWhile_eq_self_iff]
  intro image himage
  simpa using hcreates image himage

theorem imageMap_eq (frame : Frame) (activity : Activity) :
    imageMap frame activity =
      ((reached frame activity).foldl
        (fun current image => imageUpdated frame image current)
        activity).augmentedImageMap := by
  rw [imageMap, Method.after, updateImages_run]
  cases hfind : frame.updated.find? fun image =>
      Fails frame activity image with
  | some image => rfl
  | none =>
      have hcreates : CreatesAnchors frame activity := by
        simpa [CreatesAnchors, List.find?_eq_none] using hfind
      rw [reached_of_creates hcreates]

theorem containsKey_imageMap_iff
    (frame : Frame) (activity : Activity) (index : ℤ) :
    (imageMap frame activity).containsKey index = true ↔
      (frame.trackingState index = .tracking ∧
        ∃ image ∈ reached frame activity, image.index = index) ∨
        activity.augmentedImageMap.containsKey index = true ∧
          ¬ StopsNow frame activity index := by
  rw [imageMap_eq]
  unfold StopsNow
  generalize reached frame activity = images
  induction images generalizing activity with
  | nil => simp
  | cons image rest ih =>
      rw [List.foldl_cons, ih, containsKey_imageUpdated_iff]
      simp only [List.exists_mem_cons_iff]
      grind

theorem containsKey_kept_iff
    {index : ℤ}
    (hkey : activity.augmentedImageMap.containsKey index = true) :
    (imageMap frame activity).containsKey index = true ↔
      ¬ StopsNow frame activity index := by
  rw [containsKey_imageMap_iff]
  constructor
  · intro hkept hstops
    rcases hkept with ⟨htracking, _⟩ | ⟨_, hnot⟩
    · rw [hstops.1] at htracking
      contradiction
    · exact hnot hstops
  · intro hnot
    exact .inr ⟨hkey, hnot⟩

/-- The first loop leaves the cards, the hand and the drawings alone. -/
structure SameCards (activity after : Activity) : Prop where
  pokerCards : after.pokerCards = activity.pokerCards
  pokerHand : after.pokerHand = activity.pokerHand
  drawn : after.drawn = activity.drawn

instance : Std.Refl SameCards where
  refl _ := ⟨rfl, rfl, rfl⟩

instance : IsTrans Activity SameCards where
  trans _ _ _ hfirst hsecond :=
    ⟨hsecond.pokerCards.trans hfirst.pokerCards,
      hsecond.pokerHand.trans hfirst.pokerHand,
      hsecond.drawn.trans hfirst.drawn⟩

theorem updateImages_keeps (frame : Frame) :
    (updateImages frame).Keeps SameCards := by
  apply forEach_keeps
  intro image _ activity
  by_cases hfails : Fails frame activity image
  · rw [Method.after, updateImage_run_of_fails hfails]
    exact ⟨rfl, rfl, rfl⟩
  · rw [Method.after_eq_of_ok (updateImage_run hfails)]
    unfold imageUpdated
    split
    · exact ⟨rfl, rfl, rfl⟩
    · split_ifs <;> exact ⟨rfl, rfl, rfl⟩
    · exact ⟨rfl, rfl, rfl⟩

end FirstLoop

/-! ## The second loop -/

structure SameCount (activity after : Activity) : Prop where
  pokerCards : after.pokerCards = activity.pokerCards
  augmentedImageMap : after.augmentedImageMap = activity.augmentedImageMap

instance : Std.Refl SameCount where
  refl _ := ⟨rfl, rfl⟩

instance : IsTrans Activity SameCount where
  trans _ _ _ hfirst hsecond :=
    ⟨hsecond.pokerCards.trans hfirst.pokerCards,
      hsecond.augmentedImageMap.trans hfirst.augmentedImageMap⟩

theorem announceHand_keeps : announceHand.Keeps SameCount := by
  unfold announceHand
  refine Method.Keeps.bind Method.keeps_fields fun _ => ?_
  refine Method.Keeps.bind (Method.keeps_call _) fun cards => ?_
  split_ifs
  · refine Method.Keeps.bind (Method.keeps_call _) fun temp => ?_
    refine Method.Keeps.bind (Method.keeps_call _) fun hand => ?_
    refine Method.Keeps.bind (Method.keeps_assign ?_) fun _ => ?_
    · exact fun _ => ⟨rfl, rfl⟩
    · exact Method.keeps_assign fun _ => ⟨rfl, rfl⟩
  · exact Method.keeps_call (.ok ())

theorem cardType_mem (index : ℤ) : cardType index ∈ [(1 : ℤ), 2, 3, 4] := by
  unfold cardType
  split_ifs <;> simp

/-- No tracked image gets past the renderer. -/
theorem showCard_throws
    (image : AugmentedImage) (centerAnchor : ℕ) (activity : Activity) :
    (showCard image centerAnchor).Throws activity := by
  unfold showCard
  apply Method.throws_bind
  intro _ counted
  apply Method.Throws.bind
  exact draw_throws image centerAnchor (cardType_mem image.index) counted

theorem showCard_after
    (image : AugmentedImage) (centerAnchor : ℕ) (activity : Activity) :
    SameCount ((countCard image).after activity)
      ((showCard image centerAnchor).after activity) := by
  apply Method.Keeps.after_bind
  intro _
  refine Method.Keeps.bind ?_ fun _ => announceHand_keeps
  exact draw_keeps (fun _ _ => ⟨rfl, rfl⟩) image centerAnchor
    (cardType image.index)

def firstTracked (frame : Frame) (values : List (AugmentedImage × ℕ)) :
    Option (AugmentedImage × ℕ) :=
  values.find? fun pair => frame.trackingState pair.1.index = .tracking

theorem drawLoop_cons_run
    (frame : Frame) {pair : AugmentedImage × ℕ}
    (rest : List (AugmentedImage × ℕ)) {activity : Activity}
    {entry : AugmentedImage × ℕ}
    (hentry : activity.augmentedImageMap.get pair.1.index = some entry) :
    (drawLoop frame (pair :: rest)).run activity =
      if frame.trackingState pair.1.index = .tracking then
        (showCard pair.1 entry.2 >>= fun _ => drawLoop frame rest).run activity
      else (drawLoop frame rest).run activity := by
  by_cases htracking : frame.trackingState pair.1.index = .tracking
  · simp [drawLoop, hentry, deref, htracking]
  · simp [drawLoop, hentry, deref, htracking]

/-- The loop never gets beyond the first tracked image. -/
theorem drawLoop_run
    (frame : Frame) (values : List (AugmentedImage × ℕ))
    {activity : Activity}
    (hvalues : ∀ pair ∈ values,
      activity.augmentedImageMap.containsKey pair.1.index = true) :
    match firstTracked frame values with
    | none => (drawLoop frame values).run activity = .ok () activity
    | some pair =>
        (drawLoop frame values).Throws activity ∧
          SameCount ((countCard pair.1).after activity)
            ((drawLoop frame values).after activity) := by
  induction values with
  | nil => rfl
  | cons pair rest ih =>
      have hrest := ih fun other hother =>
        hvalues other (List.mem_cons_of_mem pair hother)
      have hkey := hvalues pair (by simp)
      obtain ⟨entry, hentry⟩ := Option.isSome_iff_exists.mp hkey
      have hcons := drawLoop_cons_run frame rest hentry
      by_cases htracking : frame.trackingState pair.1.index = .tracking
      · rw [if_pos htracking] at hcons
        have hfirst : firstTracked frame (pair :: rest) = some pair := by
          simp [firstTracked, htracking]
        have hthrows := showCard_throws pair.1 entry.2 activity
        have hafter := Method.after_bind_of_throws hthrows
          (fun _ => drawLoop frame rest)
        simp only [hfirst, Method.Throws, Method.after, hcons]
        constructor
        · exact hthrows.bind fun _ => drawLoop frame rest
        · have hsame := showCard_after pair.1 entry.2 activity
          rw [← hafter] at hsame
          exact hsame
      · rw [if_neg htracking] at hcons
        have hfirst : firstTracked frame (pair :: rest) =
            firstTracked frame rest := by
          simp [firstTracked, htracking]
        simp only [hfirst, Method.Throws, Method.after, hcons]
        exact hrest

theorem countCard_after
    {activity : Activity} {cards : List CountedCard}
    (hcards : activity.pokerCards = some cards) (image : AugmentedImage) :
    (countCard image).after activity =
      match parseCard image.name with
      | .ok card =>
          { activity with
            pokerCards := some (cards ++ [⟨card, image.index⟩]) }
      | .error _ => activity := by
  cases hparse : parseCard image.name with
  | ok card => simp [countCard, Method.after, hparse, hcards, deref]
  | error e => simp [countCard, Method.after, hparse]

/-! ## One frame -/

section OneFrame

variable {frame : Frame} {activity : Activity}
  {values : List (AugmentedImage × ℕ)}

theorem drawAugmentedImages_run
    (hcreates : CreatesAnchors frame activity)
    (values : List (AugmentedImage × ℕ)) :
    (drawAugmentedImages frame values).run activity =
      (drawLoop frame values).run ((updateImages frame).after activity) := by
  rw [drawAugmentedImages, EStateM.run_bind,
    updateImages_run_of_creates hcreates]

theorem drawAugmentedImages_after_of_fails
    (hfails : ¬ CreatesAnchors frame activity)
    (values : List (AugmentedImage × ℕ)) :
    (drawAugmentedImages frame values).Throws activity ∧
      (drawAugmentedImages frame values).after activity =
        (updateImages frame).after activity := by
  have hthrows := updateImages_throws hfails
  exact ⟨hthrows.bind _, Method.after_bind_of_throws hthrows _⟩

theorem Iterates.containsKey
    (hvalues : Iterates frame activity values) :
    ∀ pair ∈ values,
      ((updateImages frame).after activity).augmentedImageMap.containsKey
        pair.1.index = true := by
  intro pair hpair
  rw [ImageMap.containsKey_iff]
  exact ⟨pair, hvalues.mem_iff.mp hpair, rfl⟩

theorem drawAugmentedImages_throws
    (hvalues : Iterates frame activity values)
    {pair : AugmentedImage × ℕ}
    (hfirst : firstTracked frame values = some pair) :
    (drawAugmentedImages frame values).Throws activity := by
  by_cases hcreates : CreatesAnchors frame activity
  · have hloop := drawLoop_run frame values hvalues.containsKey
    rw [hfirst] at hloop
    unfold Method.Throws
    rw [drawAugmentedImages_run hcreates]
    exact hloop.1
  · exact (drawAugmentedImages_after_of_fails hcreates values).1

def addedCards (frame : Frame) (values : List (AugmentedImage × ℕ)) :
    List CountedCard :=
  match firstTracked frame values with
  | none => []
  | some pair =>
      match parseCard pair.1.name with
      | .ok card => [⟨card, pair.1.index⟩]
      | .error _ => []

theorem mem_addedCards_iff (index : ℤ) :
    index ∈ (addedCards frame values).map CountedCard.image ↔
      ∃ pair card, firstTracked frame values = some pair ∧
        parseCard pair.1.name = .ok card ∧ pair.1.index = index := by
  unfold addedCards
  cases firstTracked frame values with
  | none => simp
  | some pair =>
      cases hparse : parseCard pair.1.name with
      | ok card => simp [hparse, eq_comm]
      | error e => simp [hparse]

theorem addedCards_nodup :
    ((addedCards frame values).map CountedCard.image).Nodup := by
  unfold addedCards
  cases firstTracked frame values with
  | none => simp
  | some pair =>
      cases hparse : parseCard pair.1.name with
      | ok card => simp [hparse]
      | error e => simp [hparse]

theorem drawAugmentedImages_after
    (hvalues : Iterates frame activity values) {cards : List CountedCard}
    (hcards : activity.pokerCards = some cards) :
    ((drawAugmentedImages frame values).after activity).pokerCards =
        some (cards ++ if CreatesAnchors frame activity then
          addedCards frame values else []) ∧
      ((drawAugmentedImages frame values).after activity).augmentedImageMap =
        imageMap frame activity := by
  have hupdated :
      ((updateImages frame).after activity).pokerCards = some cards := by
    rw [(updateImages_keeps frame activity).pokerCards, hcards]
  by_cases hcreates : CreatesAnchors frame activity
  · have hloop := drawLoop_run frame values hvalues.containsKey
    have hafter : (drawAugmentedImages frame values).after activity =
        (drawLoop frame values).after
          ((updateImages frame).after activity) := by
      rw [Method.after, drawAugmentedImages_run hcreates]
      rfl
    rw [hafter, if_pos hcreates]
    unfold addedCards imageMap
    cases hfirst : firstTracked frame values with
    | none =>
        rw [hfirst] at hloop
        simp [Method.after_eq_of_ok hloop, hupdated]
    | some pair =>
        rw [hfirst] at hloop
        have hsame := hloop.2
        rw [countCard_after hupdated] at hsame
        cases hparse : parseCard pair.1.name with
        | ok card =>
            simp only [hparse] at hsame ⊢
            exact ⟨hsame.pokerCards, hsame.augmentedImageMap⟩
        | error e =>
            simp only [hparse, List.append_nil] at hsame ⊢
            exact ⟨hsame.pokerCards.trans hupdated, hsame.augmentedImageMap⟩
  · have hafter := (drawAugmentedImages_after_of_fails hcreates values).2
    rw [hafter, if_neg hcreates, List.append_nil]
    exact ⟨hupdated, rfl⟩

end OneFrame

/-! ## Counting every image once -/

/-- At most one card for each image, and only cards of images in the map. -/
def CountedOnce (activity : Activity) : Prop :=
  ∃ cards, activity.pokerCards = some cards ∧
    (cards.map CountedCard.image).Nodup ∧
    ∀ counted ∈ cards,
      activity.augmentedImageMap.containsKey counted.image = true

def IsCounted (activity : Activity) (index : ℤ) : Prop :=
  ∃ cards, activity.pokerCards = some cards ∧
    index ∈ cards.map CountedCard.image

section Counting

variable {frame : Frame} {activity : Activity}
  {values : List (AugmentedImage × ℕ)} {cards : List CountedCard}

theorem Iterates.containsKey_added
    (hvalues : Iterates frame activity values) {index : ℤ}
    (hadded : index ∈ (addedCards frame values).map CountedCard.image) :
    (imageMap frame activity).containsKey index = true := by
  obtain ⟨pair, card, hfirst, _, rfl⟩ := (mem_addedCards_iff index).mp hadded
  exact hvalues.containsKey pair (List.mem_of_find?_eq_some hfirst)

/-- The cards of a frame may be added to those counted before. -/
theorem countedOnce_append_iff
    {added : List CountedCard} {after : Activity}
    (hafter : after.pokerCards = some (cards ++ added))
    (hnodup : (cards.map CountedCard.image).Nodup)
    (hadded : (added.map CountedCard.image).Nodup)
    (hkeys : ∀ index ∈ added.map CountedCard.image,
      after.augmentedImageMap.containsKey index = true) :
    CountedOnce after ↔
      (∀ index ∈ cards.map CountedCard.image,
        after.augmentedImageMap.containsKey index = true) ∧
        ∀ index ∈ added.map CountedCard.image,
          index ∉ cards.map CountedCard.image := by
  unfold CountedOnce
  rw [hafter]
  simp only [Option.some.injEq, exists_eq_left', List.map_append,
    List.nodup_append', List.mem_append]
  constructor
  · intro hcounted
    rcases hcounted with ⟨⟨_, _, hdisjoint⟩, hall⟩
    constructor
    · intro index hindex
      obtain ⟨counted, hmem, rfl⟩ := List.mem_map.mp hindex
      exact hall counted (.inl hmem)
    · intro index hnew hindex
      exact hdisjoint hindex hnew
  · intro hgood
    rcases hgood with ⟨hkept, hfresh⟩
    refine ⟨⟨hnodup, hadded, ?_⟩, ?_⟩
    · intro index hindex hnew
      exact hfresh index hnew hindex
    · intro counted hmem
      rcases hmem with hold | hnew
      · exact hkept counted.image (List.mem_map_of_mem hold)
      · exact hkeys counted.image (List.mem_map_of_mem hnew)

theorem countedOnce_after_iff
    (hvalues : Iterates frame activity values)
    (hcards : activity.pokerCards = some cards)
    (hnodup : (cards.map CountedCard.image).Nodup) :
    CountedOnce ((drawAugmentedImages frame values).after activity) ↔
      (∀ index ∈ cards.map CountedCard.image,
        (imageMap frame activity).containsKey index = true) ∧
        (CreatesAnchors frame activity →
          ∀ index ∈ (addedCards frame values).map CountedCard.image,
            index ∉ cards.map CountedCard.image) := by
  have hafter := drawAugmentedImages_after hvalues hcards
  rw [← hafter.2]
  by_cases hcreates : CreatesAnchors frame activity
  · rw [if_pos hcreates] at hafter
    have hkeys : ∀ index ∈ (addedCards frame values).map CountedCard.image,
        ((drawAugmentedImages frame values).after
          activity).augmentedImageMap.containsKey index = true := by
      intro index hindex
      rw [hafter.2]
      exact hvalues.containsKey_added hindex
    rw [countedOnce_append_iff hafter.1 hnodup addedCards_nodup hkeys]
    simp only [hcreates, true_imp_iff]
  · rw [if_neg hcreates] at hafter
    rw [countedOnce_append_iff hafter.1 hnodup (by simp) (by simp)]
    simp [hcreates]

end Counting

/-- A frame keeps the count right exactly when it stops no counted image before
an anchor cannot be created, and, if all anchors are created, the first tracked
image is not counted already, unless its name is rejected. -/
theorem countedOnce_preserved_iff
    (frame : Frame) (values : List (AugmentedImage × ℕ))
    (activity : Activity) (hvalues : Iterates frame activity values)
    (hcounted : CountedOnce activity) :
    CountedOnce ((drawAugmentedImages frame values).after activity) ↔
      (∀ index, IsCounted activity index →
        ¬ StopsNow frame activity index) ∧
        (CreatesAnchors frame activity →
          ∀ pair, firstTracked frame values = some pair →
            IsCounted activity pair.1.index →
              ∃ e, parseCard pair.1.name = .error e) := by
  rcases hcounted with ⟨cards, hcards, hnodup, hkeys⟩
  have hisCounted : ∀ index, IsCounted activity index ↔
      index ∈ cards.map CountedCard.image := by
    intro index
    simp [IsCounted, hcards]
  have hkept : ∀ index ∈ cards.map CountedCard.image,
      ((imageMap frame activity).containsKey index = true ↔
        ¬ StopsNow frame activity index) := by
    intro index hindex
    obtain ⟨counted, hmem, rfl⟩ := List.mem_map.mp hindex
    exact containsKey_kept_iff (hkeys counted hmem)
  simp only [hisCounted]
  rw [countedOnce_after_iff hvalues hcards hnodup]
  constructor
  · intro hgood
    constructor
    · intro index hindex
      exact (hkept index hindex).mp (hgood.1 index hindex)
    · intro hcreates pair hfirst hindex
      cases hparse : parseCard pair.1.name with
      | error e => exact ⟨e, rfl⟩
      | ok card =>
          have hadded := (mem_addedCards_iff pair.1.index).mpr
            ⟨pair, card, hfirst, hparse, rfl⟩
          exact absurd hindex (hgood.2 hcreates pair.1.index hadded)
  · intro hcondition
    constructor
    · intro index hindex
      exact (hkept index hindex).mpr (hcondition.1 index hindex)
    · intro hcreates index hadded hindex
      obtain ⟨pair, card, hfirst, hparse, rfl⟩ :=
        (mem_addedCards_iff index).mp hadded
      obtain ⟨e, herror⟩ := hcondition.2 hcreates pair hfirst hindex
      rw [hparse] at herror
      contradiction

def countedIn (image : AugmentedImage) (card : Card) : Activity :=
  { onCreate with
    augmentedImageMap := ImageMap.empty.put image 0
    pokerCards := some [⟨card, image.index⟩]
    created := 1 }

theorem countedIn_countedOnce (image : AugmentedImage) (card : Card) :
    CountedOnce (countedIn image card) := by
  refine ⟨[⟨card, image.index⟩], rfl, by simp, ?_⟩
  intro counted hmem
  have heq : counted = ⟨card, image.index⟩ := by simpa using hmem
  subst counted
  exact (ImageMap.containsKey_put_iff ImageMap.empty image 0 _).mpr (.inl rfl)

def steadyFrame (state : TrackingState) (updated : List AugmentedImage) :
    Frame where
  updated := updated
  trackingState := fun _ => state
  createsAnchor := fun _ => true

def clubEight : AugmentedImage :=
  ⟨0, "CLUB_EIGHT.png"⟩

def club8 : AugmentedImage :=
  ⟨0, "CLUB_8.png"⟩

theorem countedOnce_preserved_tracking_clubEight :
    CountedOnce ((drawAugmentedImages (steadyFrame .tracking [clubEight])
      [(clubEight, 0)]).after (countedIn clubEight ⟨8, Card.clubs⟩)) := by
  apply (countedOnce_preserved_iff (steadyFrame .tracking [clubEight])
    [(clubEight, 0)] (countedIn clubEight ⟨8, Card.clubs⟩) (List.Perm.refl _)
    (countedIn_countedOnce clubEight ⟨8, Card.clubs⟩)).mpr
  constructor
  · intro index _ hstops
    exact absurd hstops.1 (by simp [steadyFrame])
  · intro _ pair hfirst _
    have heq : (clubEight, 0) = pair := Option.some.inj hfirst
    subst pair
    exact ⟨.numberFormat, by decide⟩

/-- A counted image which stops leaves its card behind, and a counted image
which stays tracked is counted again. -/
theorem count_spoiled_by_stopping_and_by_staying :
    (CountedOnce (countedIn clubEight ⟨8, Card.clubs⟩) ∧
        ¬ CountedOnce ((drawAugmentedImages
          (steadyFrame .stopped [clubEight]) []).after
            (countedIn clubEight ⟨8, Card.clubs⟩))) ∧
      CountedOnce (countedIn club8 ⟨8, Card.clubs⟩) ∧
        ¬ CountedOnce ((drawAugmentedImages
          (steadyFrame .tracking [club8]) [(club8, 0)]).after
            (countedIn club8 ⟨8, Card.clubs⟩)) := by
  have hstop : Iterates (steadyFrame .stopped [clubEight])
      (countedIn clubEight ⟨8, Card.clubs⟩) [] := List.Perm.refl _
  have hstay : Iterates (steadyFrame .tracking [club8])
      (countedIn club8 ⟨8, Card.clubs⟩) [(club8, 0)] := List.Perm.refl _
  have hcards : ∀ image, (countedIn image ⟨8, Card.clubs⟩).pokerCards =
      some [⟨⟨8, Card.clubs⟩, image.index⟩] := fun _ => rfl
  refine ⟨⟨countedIn_countedOnce _ _, ?_⟩, countedIn_countedOnce _ _, ?_⟩
  · rw [countedOnce_after_iff hstop (hcards clubEight) (by simp)]
    intro hgood
    exact absurd (hgood.1 0 (by decide)) (by decide)
  · rw [countedOnce_after_iff hstay (hcards club8) (by simp)]
    intro hgood
    exact absurd (by decide) (hgood.2 (by decide) 0 (by decide))

end Poker
end HighRollers
