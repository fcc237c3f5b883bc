import StereoMapping.Error
import StereoMapping.Keypoint.Descriptor

/-!
# `Keypoint.Features` — keypoints with their descriptors

All descriptors of one collection that say anything have one length, its descriptor size. The first described
keypoint fixes it; `Features.addDescribed` refuses a descriptor of another length.

## Contents
- `Feature`, `Features`, `Features.addPoint`, `Features.addDescribed`.
- `Features.checkDescriptors`: the contract of lengths and padding, for collections edited in place.
-/

namespace StereoMapping

/-- A keypoint with its descriptor, which may be empty. -/
structure Feature (P S : Type) where
  point : P
  descriptor : Descriptor S
  deriving DecidableEq

/-- Keypoints in order. -/
structure Features (P S : Type) where
  entries : Array (Feature P S)
  /-- Length of the descriptors that are not empty; zero if there is none. -/
  descriptorSize : Nat
  deriving DecidableEq

namespace Features

variable {P S : Type}

def empty : Features P S := ⟨#[], 0⟩

instance : Inhabited (Features P S) := ⟨empty⟩

/-- The collection without its keypoints. -/
def clear (fs : Features P S) : Features P S := { fs with entries := #[], descriptorSize := 0 }

/-- Points of the keypoints, in order. -/
def points (fs : Features P S) : List P := fs.entries.toList.map Feature.point

@[simp] theorem points_empty : (empty : Features P S).points = [] := rfl

variable [Scalar S]

/-- Keypoints without descriptors. -/
def ofPoints (points : List P) : Features P S := ⟨(points.map fun p => ⟨p, .empty⟩).toArray, 0⟩

/-- Appends a keypoint without descriptor. -/
def addPoint (fs : Features P S) (p : P) : Features P S :=
  { fs with entries := fs.entries.push ⟨p, .empty⟩ }

/-- Appends a keypoint with a descriptor. The first one that is not empty fixes the size of the others. -/
def addDescribed (fs : Features P S) (p : P) (components : List S) : Except Error (Features P S) :=
  let refusal : Error := .malformedDescriptor fs.entries.size components.length fs.descriptorSize
  match Descriptor.ofList? components with
  | none => throw refusal
  | some d =>
    if d.isEmpty then pure { fs with entries := fs.entries.push ⟨p, d⟩ }
    else if fs.descriptorSize = 0 then pure ⟨fs.entries.push ⟨p, d⟩, d.length⟩
    else if fs.descriptorSize ≠ d.length then throw refusal
    else pure { fs with entries := fs.entries.push ⟨p, d⟩ }

/-- A descriptor is empty or of the size of the collection, and padded with zeros. -/
def isProper (size : Nat) (d : Descriptor S) : Bool :=
  (d.length == 0 || d.length == size) && d.hasCleanPadding

/-- Every descriptor is proper; the error names the first that is not. -/
def checkDescriptors (fs : Features P S) : Except Error Unit :=
  match fs.entries.toList.zipIdx.find? fun (f, _) => !isProper fs.descriptorSize f.descriptor with
  | some (f, index) => throw (.malformedDescriptor index f.descriptor.length fs.descriptorSize)
  | none => pure ()

/-- The collection with one entry edited in place, if there is one at the index. -/
def modify? (fs : Features P S) (index : Nat) (edit : Feature P S → Feature P S) :
    Option (Features P S) :=
  if index < fs.entries.size then some { fs with entries := fs.entries.modify index edit } else none

@[simp] theorem points_ofPoints {points : List P} :
    (ofPoints points : Features P S).points = points := by
  simp [ofPoints, Features.points, Function.comp_def]

@[simp] theorem points_addPoint {fs : Features P S} {p : P} :
    (fs.addPoint p).points = fs.points ++ [p] := by
  simp [addPoint, points]

theorem points_of_addDescribed {fs gs : Features P S} {p : P} {components : List S}
    (h : fs.addDescribed p components = .ok gs) : gs.points = fs.points ++ [p] := by
  simp only [addDescribed, throw, throwThe, MonadExceptOf.throw, pure, Except.pure] at h
  split at h
  · simp at h
  · repeat' split at h
    all_goals first
      | (obtain rfl := Except.ok.inj h; simp [points])
      | simp at h

end Features

end StereoMapping
