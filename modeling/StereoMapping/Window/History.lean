import StereoMapping.Cloud.Basic
import StereoMapping.Correspondence.Basic
import StereoMapping.Image.Frame
import StereoMapping.Keypoint.Features
import StereoMapping.Window.Ring
import Std.Data.HashMap

/-!
# `Window.History` — what was perceived in the last time steps

The history keeps images, features, matches and clouds, all but the images by named categories. Each category
of each kind has a ring of its own, created at its first entry.

## Contents
- `History`, `History.empty`, `History.create` and the additions.
- `History.leftImage`, `features`, …: entries by steps back; asking for one that is not held is a breach.
- `History.removeEntry`, `History.removeOldestEntry`.
-/

namespace StereoMapping

/-- The rings of one kind, by category. -/
abbrev Categories (α : Type) := Std.HashMap String (Ring α)

namespace Categories

variable {α : Type}

/-- Adds an entry to a category, with a ring of `size` slots if it is new. -/
def push (rings : Categories α) (size : Nat) (category : String) (a : α) : Categories α :=
  rings.alter category fun held => some ((held.getD (.create size)).push a)

/-- Entries held in a category, none in an unknown one. -/
def count (rings : Categories α) (category : String) : Nat :=
  match rings[category]? with
  | some ring => ring.count
  | none => 0

end Categories

/-- Entry of a ring that holds `what`. -/
def Ring.entry {α : Type} (ring : Ring α) (what : Artifact) (steps : Nat) : Except Error α :=
  if steps < ring.count then
    match ring.get? steps with
    | some a => pure a
    | none => throw (.breach .vacantSlot)
  else throw (.breach (.notHeld what steps ring.count))

/-- Entry of a category. -/
def Categories.entry {α : Type} (rings : Categories α) (what : Artifact) (steps : Nat) (category : String) :
    Except Error α :=
  match rings[category]? with
  | some ring => ring.entry what steps
  | none => throw (.breach (.unknownCategory what category))

/-- The last perceptions. -/
structure History (S : Type) where
  /-- Entries kept in each category. -/
  size : Nat
  /-- Left and right images. -/
  images : Ring (Frame × Frame)
  featureRings : Categories (Features (Vec2 S) S)
  matchRings : Categories (Correspondences (Vec2 S) S)
  cloudRings : Categories (Cloud S)

namespace History

variable {S : Type}

/-- Bytes of the slot of a pair of images, which no other slot exceeds. -/
def slotBytes : Nat := 160

/-- Slots that there is memory for. So many for pairs of images take 640 GiB. -/
def slotLimit : Nat := 0x100000000

/-- The history of a size, without entries. -/
def empty (size : Nat) : History S := ⟨size, .create size, ∅, ∅, ∅⟩

/-- The history of a positive size, without entries, if its first ring can be allocated. -/
def create (size : Nat) : Except Error (History S) :=
  if size = 0 then throw (.breach .emptyHistory)
  else if 0x8000000000000000 ≤ slotBytes * size then throw (.breach .capacityOverflow)
  else if slotLimit < size then throw (.breach .outOfMemory)
  else pure (.empty size)

theorem create_of_le {size : Nat} (hpos : 0 < size) (hle : size ≤ slotLimit) :
    (create size : Except Error (History S)) = .ok (.empty size) := by
  unfold slotLimit at hle
  unfold create slotLimit slotBytes
  rw [if_neg (by omega), if_neg (by omega), if_neg (by omega)]
  rfl

/-- More slots than there is memory for are refused, with the cause for it. -/
theorem create_of_gt {size : Nat} (h : slotLimit < size) : ∃ cause : Breach, cause.OfMemory ∧
    (create size : Except Error (History S)) = .error (.breach cause) := by
  unfold create
  rw [if_neg (Nat.ne_of_gt (Nat.zero_lt_of_lt h)), if_pos h]
  split
  · exact ⟨.capacityOverflow, .inl rfl, rfl⟩
  · exact ⟨.outOfMemory, .inr rfl, rfl⟩

def addImages (h : History S) (left right : Frame) : History S :=
  { h with images := h.images.push (left, right) }

def addFeatures (h : History S) (category : String) (fs : Features (Vec2 S) S) : History S :=
  { h with featureRings := h.featureRings.push h.size category fs }

def addMatches (h : History S) (category : String) (cs : Correspondences (Vec2 S) S) : History S :=
  { h with matchRings := h.matchRings.push h.size category cs }

def addCloud (h : History S) (category : String) (c : Cloud S) : History S :=
  { h with cloudRings := h.cloudRings.push h.size category c }

def leftImage (h : History S) (steps : Nat) : Except Error Frame :=
  Prod.fst <$> h.images.entry .leftImage steps

def rightImage (h : History S) (steps : Nat) : Except Error Frame :=
  Prod.snd <$> h.images.entry .rightImage steps

def features (h : History S) (steps : Nat) (category : String) : Except Error (Features (Vec2 S) S) :=
  h.featureRings.entry .features steps category

def matchesBack (h : History S) (steps : Nat) (category : String) :
    Except Error (Correspondences (Vec2 S) S) :=
  h.matchRings.entry .correspondences steps category

def cloud (h : History S) (steps : Nat) (category : String) : Except Error (Cloud S) :=
  h.cloudRings.entry .pointCloud steps category

/-- Applies one edit to every ring of the history. -/
def mapRings (h : History S) (edit : {α : Type} → Ring α → Ring α) : History S :=
  { h with
    images := edit h.images
    featureRings := h.featureRings.map fun _ ring => edit ring
    matchRings := h.matchRings.map fun _ ring => edit ring
    cloudRings := h.cloudRings.map fun _ ring => edit ring }

/-- Removes the entry some steps back from every ring that holds one. -/
def removeEntry (h : History S) (steps : Nat) : History S := h.mapRings fun ring => ring.remove steps

/-- Removes the oldest entry of every ring. -/
def removeOldestEntry (h : History S) : History S := h.mapRings Ring.removeOldest

end History

end StereoMapping
