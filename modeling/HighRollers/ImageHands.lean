import HighRollers.ImageFrames

/-!
# Hands announced over runs of frames

What the poker activity is for: when five images of the card database are
tracked, the hand of the cards which they show is announced.  In no run does
this happen.  The field `pokerCards` is `null` in every state reached, and a
tracked image ends the frame with an exception in any case.
-/

namespace HighRollers
namespace Poker

open Java

/-- The names of the image list in order, with the card which each image
shows. -/
def database : List (String × Card) :=
  [("CLUB_EIGHT.png", ⟨8, Card.clubs⟩),
    ("CLUB_FIVE.png", ⟨5, Card.clubs⟩),
    ("CLUB_JACK.png", ⟨Card.jack, Card.clubs⟩),
    ("CLUB_KING.png", ⟨Card.king, Card.clubs⟩),
    ("CLUB_NINE.png", ⟨9, Card.clubs⟩),
    ("CLUB_QUEEN.png", ⟨Card.queen, Card.clubs⟩),
    ("CLUB_SIX.png", ⟨6, Card.clubs⟩),
    ("CLUB_TEN.png", ⟨10, Card.clubs⟩),
    ("DIAMOND_EIGHT.png", ⟨8, Card.diamonds⟩),
    ("DIAMOND_JACK.png", ⟨Card.jack, Card.diamonds⟩),
    ("DIAMOND_KING.png", ⟨Card.king, Card.diamonds⟩),
    ("DIAMOND_NINE.png", ⟨9, Card.diamonds⟩),
    ("DIAMOND_QUEEN.png", ⟨Card.queen, Card.diamonds⟩),
    ("DIAMOND_TEN.png", ⟨10, Card.diamonds⟩),
    ("HEART_JACK.png", ⟨Card.jack, Card.hearts⟩),
    ("HEART_KING.png", ⟨Card.king, Card.hearts⟩),
    ("HEART_QUEEN.png", ⟨Card.queen, Card.hearts⟩),
    ("SPADE_EIGHT.png", ⟨8, Card.spades⟩),
    ("SPADE_JACK.png", ⟨Card.jack, Card.spades⟩),
    ("SPADE_KING.png", ⟨Card.king, Card.spades⟩),
    ("SPADE_NINE.png", ⟨9, Card.spades⟩),
    ("SPADE_QUEEN.png", ⟨Card.queen, Card.spades⟩),
    ("SPADE_TEN.png", ⟨10, Card.spades⟩)]

/-- The index of an image is its position in the list. -/
def IsDatabaseImage (image : AugmentedImage) : Prop :=
  ∃ (position : ℕ) (entry : String × Card),
    database[position]? = some entry ∧ image.index = position ∧
      image.name = entry.1

def depicts (image : AugmentedImage) : Option Card :=
  (database[image.index.toNat]?).map Prod.snd

/-- The given images are exactly those of the database which are in the map
and tracked, and there are five of them. -/
structure TracksFive (frame : Frame) (activity : Activity)
    (images : List AugmentedImage) : Prop where
  length : images.length = 5
  nodup : images.Nodup
  mem_iff : ∀ image, image ∈ images ↔
    (∃ anchor, (image, anchor) ∈
        (imageMap frame activity).entries) ∧
      frame.trackingState image.index = .tracking ∧ IsDatabaseImage image

def AnnouncesHand (frame : Frame) (values : List (AugmentedImage × ℕ))
    (activity : Activity) (images : List AugmentedImage) : Prop :=
  ∃ after hand,
    (drawAugmentedImages frame values).run activity = .ok () after ∧
      Hand.create (images.map depicts) = .ok hand ∧
      after.snackbar = some hand.rankToString

/-! ## Runs of frames -/

inductive Reaches : Activity → Prop
  | start : Reaches onCreate
  | frame (frame : Frame) (values : List (AugmentedImage × ℕ))
      {activity : Activity} (hreaches : Reaches activity)
      (hvalues : Iterates frame activity values) :
      Reaches ((drawAugmentedImages frame values).after activity)

theorem countCard_after_null
    {activity : Activity} (hcards : activity.pokerCards = none)
    (image : AugmentedImage) :
    (countCard image).after activity = activity := by
  cases hparse : parseCard image.name with
  | ok card => simp [countCard, Method.after, hparse, hcards, deref]
  | error e => simp [countCard, Method.after, hparse]

theorem countCard_throws_null
    {activity : Activity} (hcards : activity.pokerCards = none)
    (image : AugmentedImage) :
    (countCard image).Throws activity := by
  unfold countCard
  cases hparse : parseCard image.name with
  | ok card =>
      exact ⟨.nullPointer, activity, by simp [hcards, deref]⟩
  | error e => exact ⟨e, activity, by simp⟩

theorem showCard_after_null
    {activity : Activity} (hcards : activity.pokerCards = none)
    (image : AugmentedImage) (centerAnchor : ℕ) :
    (showCard image centerAnchor).after activity = activity := by
  unfold showCard
  rw [Method.after_bind_of_throws (countCard_throws_null hcards image),
    countCard_after_null hcards]

/-- With `pokerCards` still `null` the second loop does nothing. -/
theorem drawLoop_after_null
    (frame : Frame) (values : List (AugmentedImage × ℕ))
    {activity : Activity} (hcards : activity.pokerCards = none) :
    (drawLoop frame values).after activity = activity := by
  induction values with
  | nil => rfl
  | cons pair rest ih =>
      cases hentry : activity.augmentedImageMap.get pair.1.index with
      | none => simp [drawLoop, Method.after, hentry, deref]
      | some entry =>
          have hcons := drawLoop_cons_run frame rest hentry
          have hthrows : (showCard pair.1 entry.2).Throws activity :=
            showCard_throws pair.1 entry.2 activity
          have hshow := Method.after_bind_of_throws hthrows
            fun _ => drawLoop frame rest
          rw [showCard_after_null hcards] at hshow
          rw [Method.after] at ih hshow ⊢
          rw [hcons]
          split_ifs
          · exact hshow
          · exact ih

theorem drawAugmentedImages_after_null
    (frame : Frame) (values : List (AugmentedImage × ℕ))
    {activity : Activity} (hcards : activity.pokerCards = none) :
    (drawAugmentedImages frame values).after activity =
      (updateImages frame).after activity := by
  by_cases hcreates : CreatesAnchors frame activity
  · have hupdated :
        ((updateImages frame).after activity).pokerCards = none := by
      rw [(updateImages_keeps frame activity).pokerCards, hcards]
    have hloop := drawLoop_after_null frame values hupdated
    rw [Method.after] at hloop ⊢
    rw [drawAugmentedImages_run hcreates, hloop]
  · exact (drawAugmentedImages_after_of_fails hcreates values).2

theorem drawAugmentedImages_null
    (frame : Frame) (values : List (AugmentedImage × ℕ))
    {activity : Activity} (hcards : activity.pokerCards = none) :
    ((drawAugmentedImages frame values).after activity).pokerCards = none := by
  rw [drawAugmentedImages_after_null frame values hcards,
    (updateImages_keeps frame activity).pokerCards, hcards]

theorem Reaches.pokerCards
    {activity : Activity} (hreaches : Reaches activity) :
    activity.pokerCards = none := by
  induction hreaches with
  | start => rfl
  | frame frame values _ _ ih =>
      exact drawAugmentedImages_null frame values ih

theorem TracksFive.exists_first
    {frame : Frame} {activity : Activity} {images : List AugmentedImage}
    {values : List (AugmentedImage × ℕ)}
    (hfive : TracksFive frame activity images)
    (hvalues : Iterates frame activity values) :
    ∃ pair, firstTracked frame values = some pair := by
  cases himages : images with
  | nil =>
      have hlength := hfive.length
      simp [himages] at hlength
  | cons image rest =>
      have hmem : image ∈ images := by simp [himages]
      obtain ⟨⟨anchor, hentry⟩, htracking, _⟩ := (hfive.mem_iff image).mp hmem
      have hpair : (image, anchor) ∈ values := hvalues.mem_iff.mpr hentry
      have hsome : (firstTracked frame values).isSome = true := by
        rw [firstTracked, List.find?_isSome]
        exact ⟨(image, anchor), hpair, by simpa using htracking⟩
      exact Option.isSome_iff_exists.mp hsome

theorem not_announcesHand_of_throws
    {frame : Frame} {activity : Activity} {images : List AugmentedImage}
    {values : List (AugmentedImage × ℕ)}
    (hthrows : (drawAugmentedImages frame values).Throws activity) :
    ¬ AnnouncesHand frame values activity images := by
  intro hannounces
  rcases hannounces with ⟨after, hand, hrun, _⟩
  exact Method.not_throws_of_ok hrun hthrows

/-- In every run, a frame with five tracked images of the database throws, and
no card has been counted. -/
theorem never_announces_hand
    (activity : Activity) (hreaches : Reaches activity) (frame : Frame)
    (values : List (AugmentedImage × ℕ)) (images : List AugmentedImage)
    (hvalues : Iterates frame activity values)
    (hfive : TracksFive frame activity images) :
    ¬ AnnouncesHand frame values activity images ∧
      (drawAugmentedImages frame values).Throws activity ∧
      ((drawAugmentedImages frame values).after activity).pokerCards =
        none := by
  obtain ⟨pair, hfirst⟩ := hfive.exists_first hvalues
  have hthrows := drawAugmentedImages_throws hvalues hfirst
  exact ⟨not_announcesHand_of_throws hthrows, hthrows,
    drawAugmentedImages_null frame values hreaches.pokerCards⟩

def fiveClubs : List AugmentedImage :=
  [⟨0, "CLUB_EIGHT.png"⟩, ⟨1, "CLUB_FIVE.png"⟩, ⟨2, "CLUB_JACK.png"⟩,
    ⟨3, "CLUB_KING.png"⟩, ⟨4, "CLUB_NINE.png"⟩]

def fiveClubsFrame : Frame :=
  steadyFrame .tracking fiveClubs

theorem fiveClubs_iterates :
    Iterates fiveClubsFrame onCreate (fiveClubs.zip [0, 1, 2, 3, 4]) :=
  List.Perm.of_eq (by decide)

theorem fiveClubs_database :
    ∀ image ∈ fiveClubs, IsDatabaseImage image := by
  have hnames : ∀ image ∈ fiveClubs,
      (database[image.index.toNat]?).map Prod.fst = some image.name ∧
        image.index = image.index.toNat := by
    decide
  intro image hmem
  obtain ⟨hname, hindex⟩ := hnames image hmem
  obtain ⟨entry, hentry, heq⟩ := Option.map_eq_some_iff.mp hname
  exact ⟨image.index.toNat, entry, hentry, hindex, heq.symm⟩

theorem fiveClubs_entries :
    ((imageMap fiveClubsFrame onCreate).entries).map
      Prod.fst = fiveClubs := by
  decide

theorem fiveClubs_tracked : TracksFive fiveClubsFrame onCreate fiveClubs where
  length := rfl
  nodup := by decide
  mem_iff := by
    intro image
    have hmem : (∃ anchor, (image, anchor) ∈
        (imageMap fiveClubsFrame onCreate).entries) ↔
          image ∈ fiveClubs := by
      rw [← fiveClubs_entries]
      simp
    rw [hmem]
    constructor
    · intro himage
      exact ⟨himage, rfl, fiveClubs_database image himage⟩
    · intro hall
      exact hall.1

theorem never_announces_hand_five_clubs :
    ¬ AnnouncesHand fiveClubsFrame (fiveClubs.zip [0, 1, 2, 3, 4]) onCreate
        fiveClubs ∧
      (drawAugmentedImages fiveClubsFrame
        (fiveClubs.zip [0, 1, 2, 3, 4])).Throws onCreate ∧
      ((drawAugmentedImages fiveClubsFrame
        (fiveClubs.zip [0, 1, 2, 3, 4])).after onCreate).pokerCards = none :=
  never_announces_hand onCreate .start fiveClubsFrame
    (fiveClubs.zip [0, 1, 2, 3, 4]) fiveClubs fiveClubs_iterates
    fiveClubs_tracked

theorem five_clubs_not_announced :
    TracksFive fiveClubsFrame onCreate fiveClubs ∧
      Hand.create (fiveClubs.map depicts) =
        .ok ⟨fiveClubs.map depicts, .flush⟩ ∧
      ¬ AnnouncesHand fiveClubsFrame (fiveClubs.zip [0, 1, 2, 3, 4]) onCreate
        fiveClubs := by
  obtain ⟨pair, hfirst⟩ := fiveClubs_tracked.exists_first fiveClubs_iterates
  exact ⟨fiveClubs_tracked, by decide, not_announcesHand_of_throws
    (drawAugmentedImages_throws fiveClubs_iterates hfirst)⟩

end Poker
end HighRollers
