import StereoMapping.Cloud.Basic
import StereoMapping.Correspondence.Basic

/-!
# `Correspondence.Closure` — spatial correspondences from closed chains of image matches

A keypoint seen now and before in both images of a stereo pair links four image matches:

```text
  now left  --now--->  now right
     |                     |
    left                 right
     v                     v
 past left --past--->  past right
```

Each chain that closes gives one correspondence in space, between the point triangulated from the current
match and the one triangulated from the past match.

## Contents
- `PixelMatching`: when two pixels of different matches are the same.
- `FourMatches`, `FourMatches.closedChains`, `FourMatches.correspondences`.
-/

namespace StereoMapping

variable {S : Type} [Scalar S]

/-- How pixels of different matches are compared. -/
inductive PixelMatching (S : Type) where
  /-- Numerical equality of both coordinates. -/
  | exact
  /-- Both coordinates at most this far apart. -/
  | tolerance (bound : S)
  deriving DecidableEq

namespace PixelMatching

instance : Inhabited (PixelMatching S) := ⟨exact⟩

/-- Whether two pixels are taken for one keypoint. -/
def samePixel (m : PixelMatching S) (a b : Vec2 S) : Bool :=
  match m with
  | exact => Scalar.eq a.x b.x && Scalar.eq a.y b.y
  | tolerance bound =>
    Scalar.le (Scalar.abs (a.x - b.x)) bound && Scalar.le (Scalar.abs (a.y - b.y)) bound

end PixelMatching

/-- The matches between the four images of two stereo pairs, and the points triangulated from the matches
within each pair. -/
structure FourMatches (S : Type) where
  /-- From the current left to the current right image. -/
  now : Correspondences (Vec2 S) S
  /-- From the current to the past left image. -/
  left : Correspondences (Vec2 S) S
  /-- From the current to the past right image. -/
  right : Correspondences (Vec2 S) S
  /-- From the past left to the past right image. -/
  past : Correspondences (Vec2 S) S
  /-- One point for each match of `now`. -/
  nowCloud : Cloud S
  /-- One point for each match of `past`. -/
  pastCloud : Cloud S

namespace FourMatches

/-- Indices in `now` and `past` of the closed chains of valid matches, one entry for each chain. -/
def closedChains (m : PixelMatching S) (f : FourMatches S) : List (Nat × Nat) :=
  let lefts := f.left.valid
  let rights := f.right.valid
  let pasts := f.past.valid
  f.now.valid.flatMap fun (n, i) =>
    (lefts.filter fun (l, _) => m.samePixel n.source l.source).flatMap fun (l, _) =>
      (rights.filter fun (r, _) => m.samePixel n.sink r.source).flatMap fun (r, _) =>
        (pasts.filter fun (p, _) => m.samePixel p.source l.sink && m.samePixel p.sink r.sink).map
          fun (_, j) => (i, j)

/-- The points of a chain, from current to past, if both exist. -/
def correspondence? (f : FourMatches S) (chain : Nat × Nat) : Option (Correspondence (Vec3 S) S) :=
  match f.nowCloud.validPoint? chain.1, f.pastCloud.validPoint? chain.2 with
  | some p, some q => some ⟨p, q, 1⟩
  | _, _ => none

/-- Correspondences of the closed chains, all with confidence one. -/
def correspondences (m : PixelMatching S) (f : FourMatches S) : Correspondences (Vec3 S) S :=
  ((f.closedChains m).filterMap f.correspondence?).toArray

end FourMatches

end StereoMapping
