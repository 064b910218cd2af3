import HighRollers.JavaRun

/-!
# What ARCore reports

The two activities see the world through ARCore: tracking states, the hits of
a tap, and the anchors made from them.  The tests which ARCore answers about a
hit are part of the hit, and so is whether an anchor can be made from it.
-/

namespace HighRollers

inductive TrackingState
  | tracking
  | paused
  | stopped
  deriving DecidableEq, Repr

inductive OrientationMode
  | initializedToIdentity
  | estimatedSurfaceNormal
  deriving DecidableEq, Repr

inductive Trackable
  | plane (isPoseInPolygon : Bool) (distanceIsPositive : Bool)
  | point (orientationMode : OrientationMode)
  | other
  deriving DecidableEq, Repr

structure HitResult where
  trackable : Trackable
  /-- Whether `createAnchor` returns; otherwise it throws. -/
  createsAnchor : Bool
  deriving DecidableEq, Repr

/-- One call of `handleTap`: the hits of the polled tap, nearest first, or
`none` when no tap was waiting. -/
structure TapFrame where
  tap : Option (List HitResult)
  camera : TrackingState
  deriving DecidableEq, Repr

end HighRollers
