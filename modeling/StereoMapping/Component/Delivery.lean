import StereoMapping.Component.Basic

/-!
# `Component.Delivery` — what a computation hands over to its caller

A caller gives the inputs of one computation and receives its result in one of two forms: as a new value, or written
over storage that it owns. Flags of success are answered, not stored.

## Contents
- `Delivery`: the parts of an output that are stored and answered; `Capability.delivery`.
- `Component.runInto`, `Component.runNew`: the two forms.
-/

namespace StereoMapping

/-- Which part of an output is stored, over what, and which is answered. -/
structure Delivery (Out : Type) : Type 1 where
  Stored : Type
  Answer : Type
  /-- New storage. -/
  blank : Stored
  write : Out → Stored → Stored
  answer : Out → Answer

namespace Delivery

/-- An output that is stored as a whole. -/
def whole {Out : Type} (blank : Out) : Delivery Out where
  Stored := Out
  Answer := Unit
  blank := blank
  write out _ := out
  answer _ := ()

end Delivery

namespace Component

variable {In Out : Type}

/-- One computation into storage of the caller. -/
def runInto (c : Component In Out) (d : Delivery Out) (input : In) (held : d.Stored) :
    Component In Out × d.Stored × d.Answer :=
  let (c, out) := c.run input
  (c, d.write out held, d.answer out)

/-- One computation into new storage. -/
def runNew (c : Component In Out) (d : Delivery Out) (input : In) : Component In Out × d.Stored × d.Answer :=
  c.runInto d input d.blank

end Component

namespace Capability

variable {S D : Type} [Scalar D]

/-- What is handed over by a component of a capability. -/
def delivery : (c : Capability) → Delivery (c.Output S D)
  | imageFiltering => .whole .empty
  | stereoReconstruction => .whole .empty
  | featureExtraction => .whole .empty
  | featureDescription => .whole .empty
  | featureMatching => .whole #[]
  | triangulation => .whole .empty
  | transformEstimation =>
    { Stored := List (Pose D), Answer := Bool, blank := [], write := fun out _ => out.poses, answer := (·.success) }
  | registration =>
    { Stored := Pose D, Answer := Bool, blank := .identity, write := fun out _ => out.transform,
      answer := (·.success) }

end Capability

end StereoMapping
