import HighRollers.ImageHands

/-!
# What a frame of the poker activity draws

Each tracked image of the database should get its four corners and the object
of the suit in its name.  The renderer itself stops after the corners, at a
pose which is not in its array, and the suit is derived a second time from
ranges of indices which are off by one.
-/

namespace HighRollers
namespace Poker

open Java

/-! ## Suits by name and by index -/

def NamesSuit (imageName : String) (suit : SuitWord) : Prop :=
  (splitString imageName).head? = some suit.word.toList

def suitObject : SuitWord → ImageObject
  | .heart => .heart
  | .diamond => .diamond
  | .club => .club
  | .spade => .spade

/-- The case of the renderer which draws the object of the suit first. -/
def suitType : SuitWord → ℤ
  | .heart => 1
  | .diamond => 2
  | .club => 3
  | .spade => 4

theorem database_cardType :
    ∀ position ∈ List.range database.length,
      ∀ suit ∈ [SuitWord.heart, .diamond, .club, .spade],
        (database[position]?).bind (fun entry => (splitString entry.1).head?) =
            some suit.word.toList →
          (cardType position = suitType suit ↔
            position ≠ 8 ∧ position ≠ 14 ∧ position ≠ 17) := by
  decide +kernel

/-- The ranges of indices agree with the names except at `DIAMOND_EIGHT`,
`HEART_JACK` and `SPADE_EIGHT`. -/
theorem cardType_eq_suitType_iff
    {image : AugmentedImage} (himage : IsDatabaseImage image)
    {suit : SuitWord} (hsuit : NamesSuit image.name suit) :
    cardType image.index = suitType suit ↔
      image.index ≠ 8 ∧ image.index ≠ 14 ∧ image.index ≠ 17 := by
  obtain ⟨position, entry, hentry, hindex, hname⟩ := himage
  have hposition : position < database.length :=
    (List.getElem?_eq_some_iff.mp hentry).1
  have hnamed : (database[position]?).bind
      (fun entry => (splitString entry.1).head?) =
        some suit.word.toList := by
    rw [hentry, Option.bind_some, ← hname]
    exact hsuit
  have hmem : suit ∈ [SuitWord.heart, .diamond, .club, .spade] := by
    cases suit <;> simp
  rw [hindex, database_cardType position (List.mem_range.mpr hposition) suit
    hmem hnamed]
  norm_cast

/-! ## The renderer -/

def corners (image : AugmentedImage) (centerAnchor tintColor : ℕ) :
    List Drawing :=
  [⟨image.index, .imageFrameUpperLeft, ⟨centerAnchor, .upperLeft⟩, tintColor⟩,
    ⟨image.index, .imageFrameUpperRight, ⟨centerAnchor, .upperRight⟩,
      tintColor⟩,
    ⟨image.index, .imageFrameLowerRight, ⟨centerAnchor, .lowerRight⟩,
      tintColor⟩,
    ⟨image.index, .imageFrameLowerLeft, ⟨centerAnchor, .lowerLeft⟩, tintColor⟩]

theorem drawAt_top_run
    {σ : Type} {record : Drawing → σ → σ} (image : AugmentedImage)
    (centerAnchor tintColor : ℕ) (object : ImageObject) (state : σ) :
    (drawAt record image centerAnchor tintColor object 4).run state =
      .error .arrayIndexOutOfBounds state :=
  rfl

/-- The renderer draws the four corners and then leaves its array of poses. -/
theorem draw_run
    {σ : Type} {record : Drawing → σ → σ} {image : AugmentedImage}
    (himage : 0 ≤ image.index) (centerAnchor : ℕ) {cardType : ℤ}
    (hcardType : cardType ∈ [(1 : ℤ), 2, 3, 4]) (state : σ) :
    ∃ tintColor ∈ tintColorsHex,
      (draw record image centerAnchor cardType).run state =
        .error .arrayIndexOutOfBounds
          ((corners image centerAnchor tintColor).foldl
            (fun current drawing => record drawing current) state) := by
  obtain ⟨n, hindex⟩ := Int.eq_ofNat_of_zero_le himage
  have hlt : n % tintColorsHex.length < tintColorsHex.length :=
    Nat.mod_lt n (by decide)
  have htint : arrayGet tintColorsHex
      (image.index.tmod tintColorsHex.length) =
        .ok tintColorsHex[n % tintColorsHex.length] := by
    rw [hindex, ← Int.ofNat_tmod, arrayGet_natCast_of_lt hlt]
  refine ⟨tintColorsHex[n % tintColorsHex.length], List.getElem_mem hlt, ?_⟩
  have hcorner : ∀ (object : ImageObject) (corner : ℤ) (pose : Pose)
      (current : σ),
      arrayGet (worldBoundaryPoses centerAnchor) corner = .ok pose →
        (drawAt record image centerAnchor
          tintColorsHex[n % tintColorsHex.length] object corner).run current =
          .ok () (record ⟨image.index, object, pose,
            tintColorsHex[n % tintColorsHex.length]⟩ current) := by
    intro object corner pose current hpose
    simp [drawAt, hpose]
  unfold draw
  simp only [EStateM.run_bind, htint, run_call_ok]
  rw [hcorner _ 0 ⟨centerAnchor, .upperLeft⟩ _ rfl]
  simp only
  rw [hcorner _ 1 ⟨centerAnchor, .upperRight⟩ _ rfl]
  simp only
  rw [hcorner _ 2 ⟨centerAnchor, .lowerRight⟩ _ rfl]
  simp only
  rw [hcorner _ 3 ⟨centerAnchor, .lowerLeft⟩ _ rfl]
  simp only [List.mem_cons, List.not_mem_nil, or_false] at hcardType ⊢
  rcases hcardType with rfl | rfl | rfl | rfl <;>
    simp [switch, runOn, drawAt_top_run, corners]

/-! ## Frames -/

/-- What a frame should draw: the corners and the suit object of each tracked
image of the map, and nothing else, without an exception. -/
structure DrawsImages (frame : Frame) (values : List (AugmentedImage × ℕ))
    (activity after : Activity) (drawings : List Drawing) : Prop where
  returns : (drawAugmentedImages frame values).run activity = .ok () after
  drawn : after.drawn = activity.drawn ++ drawings
  tracked : ∀ pair ∈ (imageMap frame activity).entries,
    frame.trackingState pair.1.index = .tracking →
      ∃ suit, NamesSuit pair.1.name suit ∧
        ((drawings.filter fun drawing =>
          drawing.image = pair.1.index).map Drawing.object).Perm
            [.imageFrameUpperLeft, .imageFrameUpperRight,
              .imageFrameLowerRight, .imageFrameLowerLeft, suitObject suit]
  others : ∀ drawing ∈ drawings,
    ∃ pair ∈ (imageMap frame activity).entries,
      frame.trackingState pair.1.index = .tracking ∧
        drawing.image = pair.1.index

theorem tracked_of_imageMap_iff
    {frame : Frame} {activity : Activity}
    (hcreates : CreatesAnchors frame activity) :
    (∀ pair ∈ (imageMap frame activity).entries,
        frame.trackingState pair.1.index ≠ .tracking) ↔
      (∀ image ∈ frame.updated,
        frame.trackingState image.index ≠ .tracking) ∧
        ∀ pair ∈ activity.augmentedImageMap.entries,
          frame.trackingState pair.1.index ≠ .tracking := by
  have hkeys : ∀ (map : ImageMap),
      (∀ pair ∈ map.entries,
          frame.trackingState pair.1.index ≠ .tracking) ↔
        ∀ index, map.containsKey index = true →
          frame.trackingState index ≠ .tracking := by
    intro map
    simp only [ImageMap.containsKey_iff]
    constructor
    · intro hentries index hkey
      obtain ⟨pair, hpair, rfl⟩ := hkey
      exact hentries pair hpair
    · intro hindices pair hpair
      exact hindices pair.1.index ⟨pair, hpair, rfl⟩
  rw [hkeys, hkeys]
  simp only [containsKey_imageMap_iff, reached_of_creates hcreates]
  constructor
  · intro hupdated
    constructor
    · intro image himage htracking
      exact hupdated image.index (.inl ⟨htracking, image, himage, rfl⟩)
        htracking
    · intro index hkey htracking
      have hkept : ¬ StopsNow frame activity index := by
        intro hstops
        have hstopped := hstops.1
        rw [htracking] at hstopped
        contradiction
      exact hupdated index (.inr ⟨hkey, hkept⟩) htracking
  · intro hbefore index hkey htracking
    rcases hkey with ⟨-, image, himage, rfl⟩ | ⟨hkey, -⟩
    · exact hbefore.1 image himage htracking
    · exact hbefore.2 index hkey htracking

/-- A frame draws what it should only when it has nothing to draw: no updated
image and no image of the map is tracked. -/
theorem draws_images_iff
    (frame : Frame) (values : List (AugmentedImage × ℕ))
    (activity : Activity) (hvalues : Iterates frame activity values) :
    (∃ after drawings, DrawsImages frame values activity after drawings) ↔
      (∀ image ∈ frame.updated,
        frame.trackingState image.index ≠ .tracking) ∧
        ∀ pair ∈ activity.augmentedImageMap.entries,
          frame.trackingState pair.1.index ≠ .tracking := by
  constructor
  · intro hdraws
    obtain ⟨after, drawings, hdraws⟩ := hdraws
    have hreturns := Method.not_throws_of_ok hdraws.returns
    have hcreates : CreatesAnchors frame activity := by
      by_contra hfails
      exact hreturns (drawAugmentedImages_after_of_fails hfails values).1
    rw [← tracked_of_imageMap_iff hcreates]
    intro pair hpair htracking
    have hsome : (firstTracked frame values).isSome = true := by
      rw [firstTracked, List.find?_isSome]
      exact ⟨pair, hvalues.mem_iff.mpr hpair, by simpa using htracking⟩
    obtain ⟨first, hfirst⟩ := Option.isSome_iff_exists.mp hsome
    exact hreturns (drawAugmentedImages_throws hvalues hfirst)
  · intro hbefore
    have hcreates : CreatesAnchors frame activity :=
      fun image himage hfails => hbefore.1 image himage hfails.1
    have hnone := (tracked_of_imageMap_iff hcreates).mpr hbefore
    have hfirst : firstTracked frame values = none := by
      rw [firstTracked, List.find?_eq_none]
      intro pair hpair
      simpa using hnone pair (hvalues.mem_iff.mp hpair)
    have hloop := drawLoop_run frame values hvalues.containsKey
    rw [hfirst] at hloop
    refine ⟨(updateImages frame).after activity, [], ?_, ?_, ?_, by simp⟩
    · rw [drawAugmentedImages_run hcreates]
      exact hloop
    · rw [(updateImages_keeps frame activity).drawn, List.append_nil]
    · intro pair hpair htracking
      exact absurd htracking (hnone pair hpair)

theorem draws_images_paused_clubs :
    ∃ after drawings, DrawsImages (steadyFrame .paused fiveClubs) [] onCreate
      after drawings :=
  (draws_images_iff (steadyFrame .paused fiveClubs) [] onCreate
    (List.Perm.refl _)).mpr
      ⟨fun _ _ => by simp [steadyFrame], fun _ _ => by simp [steadyFrame]⟩

theorem five_clubs_not_drawn :
    (∀ pair ∈ (imageMap fiveClubsFrame onCreate).entries,
        IsDatabaseImage pair.1) ∧
      (drawAugmentedImages fiveClubsFrame
        (fiveClubs.zip [0, 1, 2, 3, 4])).Throws onCreate ∧
      ¬ ∃ after drawings, DrawsImages fiveClubsFrame
        (fiveClubs.zip [0, 1, 2, 3, 4]) onCreate after drawings := by
  obtain ⟨first, hfirst⟩ := fiveClubs_tracked.exists_first fiveClubs_iterates
  have hthrows := drawAugmentedImages_throws fiveClubs_iterates hfirst
  refine ⟨?_, hthrows, ?_⟩
  · intro pair hpair
    apply fiveClubs_database
    rw [← fiveClubs_entries]
    exact List.mem_map_of_mem hpair
  · intro hdraws
    obtain ⟨after, drawings, hdraws⟩ := hdraws
    exact Method.not_throws_of_ok hdraws.returns hthrows

end Poker
end HighRollers
