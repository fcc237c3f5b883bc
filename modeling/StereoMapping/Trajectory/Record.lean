import StereoMapping.Geometry.Pose
import StereoMapping.Trajectory.Lines

/-!
# `Trajectory.Record` — trajectories and associations of stereo pairs

A line of a trajectory is `timestamp x y z qx qy qz qw`, the quaternion as it is. A line of an association
file is `timestamp left right`, with the paths of two images. Timestamps are in seconds.

## Contents
- `TrajectoryPoint`, `TrajectoryPoint.render`, `readTrajectory`.
- `StereoAssociation`, `StereoAssociation.micros`, `readAssociations`.
-/

namespace StereoMapping

variable {D : Type} [Scalar D]

/-- A pose at a time. -/
structure TrajectoryPoint (D : Type) where
  timestamp : D
  pose : Pose D

/-- Two images taken at a time. -/
structure StereoAssociation (D : Type) where
  timestamp : D
  left : String
  right : String

/-! ## Trajectories -/

/-- A trajectory line. -/
def TrajectoryPoint.render (p : TrajectoryPoint D) : String :=
  " ".intercalate ((p.timestamp :: p.pose.components).map fun x => (Scalar.numeral x).render)

/-- At least one blank, and what follows. -/
def scanBlanks? (cs : List Char) : Option (List Char) :=
  match cs with
  | c :: rest => if isBlank c then some (rest.dropWhile isBlank) else none
  | [] => none

/-- A first scalar, then `n` more, each after blanks. -/
def scanScalars? (n : Nat) (cs : List Char) : Option (List D × List Char) := do
  let (numeral, rest) ← Numeral.scan? cs
  let x : D := Scalar.ofNumeral numeral
  match n with
  | 0 => return ([x], rest)
  | n + 1 =>
    let (xs, rest) ← scanScalars? n (← scanBlanks? rest)
    return (x :: xs, rest)

/-- The record of a trajectory line. -/
def scanTrajectoryPoint? (cs : List Char) : Option (TrajectoryPoint D × List Char) :=
  match (scanScalars? 7 cs : Option (List D × List Char)) with
  | some ([t, x, y, z, qx, qy, qz, qw], rest) => some (⟨t, ⟨⟨x, y, z⟩, ⟨qx, qy, qz, qw⟩⟩⟩, rest)
  | _ => none

/-- The points of a trajectory. -/
def readTrajectory (text : String) : Except Error (List (TrajectoryPoint D)) :=
  readLines scanTrajectoryPoint? text

/-! ## Associations -/

/-- Timestamp in microseconds. -/
def StereoAssociation.micros (a : StereoAssociation D) : Int64 :=
  Scalar.roundInt64 (a.timestamp * Scalar.ofNat 1000000)

/-- A path: at least one character, up to a blank or the end of the line. -/
def scanPath? (cs : List Char) : Option (String × List Char) :=
  match cs.span fun c => !isBlankOrEnd c with
  | ([], _) => none
  | (path, rest) => some (String.ofList path, rest)

/-- The record of an association line. -/
def scanAssociation? (cs : List Char) : Option (StereoAssociation D × List Char) := do
  let (numeral, rest) ← Numeral.scan? cs
  let (left, rest) ← scanPath? (← scanBlanks? rest)
  let (right, rest) ← scanPath? (← scanBlanks? rest)
  return (⟨Scalar.ofNumeral numeral, left, right⟩, rest)

/-- The associations of a text. -/
def readAssociations (text : String) : Except Error (List (StereoAssociation D)) :=
  readLines scanAssociation? text

end StereoMapping
