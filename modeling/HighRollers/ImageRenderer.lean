import HighRollers.JavaMethod

/-!
# Drawing an augmented image

`AugmentedImageRenderer.draw` puts a frame of four corners around an image and
one suit object on top of it.  Poses are not computed here: a pose in the world
is the anchor it belongs to together with its place in the local list.  The
local list has five poses, the array of world poses only four.
-/

namespace HighRollers
namespace Poker

open Java

structure AugmentedImage where
  index : ℤ
  name : String
  deriving DecidableEq, Repr

inductive LocalPose
  | upperLeft
  | upperRight
  | lowerRight
  | lowerLeft
  | above
  deriving DecidableEq, Repr

structure Pose where
  anchor : ℕ
  localPose : LocalPose
  deriving DecidableEq, Repr

inductive ImageObject
  | imageFrameUpperLeft
  | imageFrameUpperRight
  | imageFrameLowerRight
  | imageFrameLowerLeft
  | heart
  | diamond
  | club
  | spade
  deriving DecidableEq, Repr

structure Drawing where
  image : ℤ
  object : ImageObject
  pose : Pose
  tintColor : ℕ
  deriving DecidableEq, Repr

def tintColorsHex : List ℕ :=
  [0x000000, 0xF44336, 0xE91E63, 0x9C27B0, 0x673AB7, 0x3F51B5, 0x2196F3,
    0x03A9F4, 0x00BCD4, 0x009688, 0x4CAF50, 0x8BC34A, 0xCDDC39, 0xFFEB3B,
    0xFFC107, 0xFF9800]

def localBoundaryPoses : List LocalPose :=
  [.upperLeft, .upperRight, .lowerRight, .lowerLeft, .above]

/-- `new Pose[4]`, filled from the first four local poses. -/
def worldBoundaryPoses (centerAnchor : ℕ) : List Pose :=
  (localBoundaryPoses.take 4).map fun localPose => ⟨centerAnchor, localPose⟩

section Draw

variable {σ : Type} (record : Drawing → σ → σ)

def drawAt (image : AugmentedImage) (centerAnchor tintColor : ℕ)
    (object : ImageObject) (corner : ℤ) : Method σ Unit := do
  let pose ← call (arrayGet (worldBoundaryPoses centerAnchor) corner)
  modify (record ⟨image.index, object, pose, tintColor⟩)

/-- `AugmentedImageRenderer.draw`; the drawings go to the caller's `record`. -/
def draw (image : AugmentedImage) (centerAnchor : ℕ) (cardType : ℤ) :
    Method σ Unit := do
  let tintColor ←
    call (arrayGet tintColorsHex (image.index.tmod tintColorsHex.length))
  drawAt record image centerAnchor tintColor .imageFrameUpperLeft 0
  drawAt record image centerAnchor tintColor .imageFrameUpperRight 1
  drawAt record image centerAnchor tintColor .imageFrameLowerRight 2
  drawAt record image centerAnchor tintColor .imageFrameLowerLeft 3
  switch cardType
    [(1, drawAt record image centerAnchor tintColor .heart 4),
      (2, drawAt record image centerAnchor tintColor .diamond 4),
      (3, drawAt record image centerAnchor tintColor .club 4),
      (4, drawAt record image centerAnchor tintColor .spade 4)]
    (pure ())

variable {record}

theorem drawAt_top_throws
    (image : AugmentedImage) (centerAnchor tintColor : ℕ)
    (object : ImageObject) (state : σ) :
    (drawAt record image centerAnchor tintColor object 4).Throws state :=
  ⟨.arrayIndexOutOfBounds, state, rfl⟩

/-- Every suit object is asked for at the pose which does not exist. -/
theorem draw_throws
    (image : AugmentedImage) (centerAnchor : ℕ) {cardType : ℤ}
    (hcardType : cardType ∈ [(1 : ℤ), 2, 3, 4]) (state : σ) :
    (draw record image centerAnchor cardType).Throws state := by
  unfold draw
  apply Method.throws_bind
  intro tintColor afterTint
  apply Method.throws_bind
  intro _ afterUpperLeft
  apply Method.throws_bind
  intro _ afterUpperRight
  apply Method.throws_bind
  intro _ afterLowerRight
  apply Method.throws_bind
  intro _ afterLowerLeft
  apply switch_throws
  · exact hcardType
  · simp only [List.forall_mem_cons]
    refine ⟨?_, ?_, ?_, ?_, by simp⟩
    all_goals
      intro current
      exact drawAt_top_throws image centerAnchor tintColor _ current

section Frame

variable {relation : σ → σ → Prop} [Std.Refl relation] [IsTrans σ relation]

theorem drawAt_keeps
    (hrecord : ∀ drawing state, relation state (record drawing state))
    (image : AugmentedImage) (centerAnchor tintColor : ℕ)
    (object : ImageObject) (corner : ℤ) :
    (drawAt record image centerAnchor tintColor object corner).Keeps
      relation := by
  refine Method.Keeps.bind (Method.keeps_call _) ?_
  intro pose
  exact Method.keeps_assign fun state => hrecord _ state

theorem draw_keeps
    (hrecord : ∀ drawing state, relation state (record drawing state))
    (image : AugmentedImage) (centerAnchor : ℕ) (cardType : ℤ) :
    (draw record image centerAnchor cardType).Keeps relation := by
  have hcorner := drawAt_keeps hrecord image centerAnchor
  refine Method.Keeps.bind (Method.keeps_call _) ?_
  intro tintColor
  refine (hcorner tintColor .imageFrameUpperLeft 0).bind fun _ => ?_
  refine (hcorner tintColor .imageFrameUpperRight 1).bind fun _ => ?_
  refine (hcorner tintColor .imageFrameLowerRight 2).bind fun _ => ?_
  refine (hcorner tintColor .imageFrameLowerLeft 3).bind fun _ => ?_
  apply switch_keeps
  · simp only [List.forall_mem_cons]
    refine ⟨?_, ?_, ?_, ?_, by simp⟩
    all_goals
      exact hcorner tintColor _ 4
  · exact Method.keeps_call (.ok ())

end Frame

end Draw

end Poker
end HighRollers
