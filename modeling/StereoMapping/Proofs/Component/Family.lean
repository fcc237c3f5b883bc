import StereoMapping.Component.Builtin

/-!
# `Proofs.Component.Family` — the built-in components as one family

The seven built-in components differ in their settings, slots and capabilities. What holds of all of them is stated
once, for any member of the family.

## Contents
- `Builtin`: the members; `Builtin.capability`, `Builtin.Params`, `Builtin.Slots`, `Builtin.algorithm`.
-/

namespace StereoMapping

/-- The built-in components. -/
inductive Builtin where
  | cornerDetection
  | patchDescription
  | nearestMatching
  | blockMatching
  | matchTriangulation
  | windowAlignment
  | cloudRegistration
  deriving DecidableEq

namespace Builtin

variable {S D : Type} [Scalar S] [Scalar D] [Precision S D]

def capability : Builtin → Capability
  | cornerDetection => .featureExtraction
  | patchDescription => .featureDescription
  | nearestMatching => .featureMatching
  | blockMatching => .stereoReconstruction
  | matchTriangulation => .triangulation
  | windowAlignment => .transformEstimation
  | cloudRegistration => .registration

/-- The settings of a member. -/
def Params (S : Type) : Builtin → Type
  | cornerDetection => CornerSettings S
  | patchDescription => PatchSettings
  | nearestMatching => MatchSettings S
  | blockMatching => StereoSettings S
  | matchTriangulation => TriangulationSettings S
  | windowAlignment => AlignmentSettings S
  | cloudRegistration => RegistrationSettings S

/-- The inputs that a member stores. -/
def Slots (S D : Type) : Builtin → Type
  | cornerDetection => Frame
  | patchDescription => Frame × Features (Vec2 S) S
  | nearestMatching => Features (Vec2 S) S × Features (Vec2 S) S
  | blockMatching => Frame × Frame
  | matchTriangulation => Correspondences (Vec2 S) S × Pose D
  | windowAlignment => WindowTable S
  | cloudRegistration => RegistrationSlots S D

instance settings : (b : Builtin) → Settings (b.Params S)
  | cornerDetection => inferInstanceAs (Settings (CornerSettings S))
  | patchDescription => inferInstanceAs (Settings PatchSettings)
  | nearestMatching => inferInstanceAs (Settings (MatchSettings S))
  | blockMatching => inferInstanceAs (Settings (StereoSettings S))
  | matchTriangulation => inferInstanceAs (Settings (TriangulationSettings S))
  | windowAlignment => inferInstanceAs (Settings (AlignmentSettings S))
  | cloudRegistration => inferInstanceAs (Settings (RegistrationSettings S))

def algorithm [Decomposing D] : (b : Builtin) →
    Algorithm (b.Params S) (b.capability.Input S D) (b.Slots S D) (b.capability.Output S D)
  | cornerDetection => StereoMapping.cornerDetection
  | patchDescription => StereoMapping.patchDescription
  | nearestMatching => StereoMapping.nearestMatching
  | blockMatching => StereoMapping.blockMatching
  | matchTriangulation => StereoMapping.matchTriangulation
  | windowAlignment => StereoMapping.windowAlignment
  | cloudRegistration => StereoMapping.cloudRegistration

end Builtin

end StereoMapping
