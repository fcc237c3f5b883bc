import StereoMapping.Number.Scalar

/-!
# `Keypoint.Descriptor` — descriptors of bounded length

A descriptor stores a fixed number of components, of which the first `length` are meaningful. The padding
after them is zero in every descriptor made by `Descriptor.ofList?`; whoever edits one in place may break
this, and `Descriptor.hasCleanPadding` tells.

## Contents
- `Descriptor`, `Descriptor.ofList?`, `Descriptor.toList`, `Descriptor.squaredDistance`.
- `Descriptor.toList_of_ofList?`: what is stored is what is read.
-/

namespace StereoMapping

/-- Components that a descriptor can hold. -/
def descriptorCapacity : Nat := 128

/-- The description of a keypoint. -/
structure Descriptor (S : Type) where
  components : Vector S descriptorCapacity
  /-- Number of meaningful components. -/
  length : Nat
  deriving DecidableEq

namespace Descriptor

variable {S : Type} [Scalar S]

/-- The descriptor without components. -/
def empty : Descriptor S := ⟨Vector.replicate _ 0, 0⟩

instance : Inhabited (Descriptor S) := ⟨empty⟩

/-- The descriptor of some components, unless they are too many. -/
def ofList? (values : List S) : Option (Descriptor S) :=
  if values.length ≤ descriptorCapacity then
    some ⟨Vector.ofFn fun k => values.getD k 0, values.length⟩
  else none

/-- Whether the descriptor says nothing. -/
def isEmpty (d : Descriptor S) : Bool := d.length == 0

/-- The meaningful components. -/
def toList (d : Descriptor S) : List S := d.components.toList.take d.length

/-- The length fits the storage and the padding is zero. -/
def hasCleanPadding (d : Descriptor S) : Bool :=
  d.length ≤ descriptorCapacity && (d.components.toList.drop d.length).all fun c => Scalar.eq c 0

/-- Squared Euclidean distance over the components that both have. -/
def squaredDistance (a b : Descriptor S) : S :=
  Scalar.sum (List.zipWith (fun x y => (x - y) * (x - y)) a.toList b.toList)

@[simp] theorem toList_empty : (empty : Descriptor S).toList = [] := by simp [empty, toList]

theorem ofList?_isSome_iff {values : List S} :
    (ofList? values).isSome ↔ values.length ≤ descriptorCapacity := by
  unfold ofList?
  split <;> simp_all

theorem length_of_ofList? {values : List S} {d : Descriptor S} (h : ofList? values = some d) :
    d.length = values.length := by
  unfold ofList? at h
  split at h
  · obtain rfl := Option.some.inj h
    rfl
  · simp at h

/-- The components read are those that were stored. -/
theorem toList_of_ofList? {values : List S} {d : Descriptor S} (h : ofList? values = some d) :
    d.toList = values := by
  unfold ofList? at h
  split at h
  · rename_i hle
    obtain rfl := Option.some.inj h
    apply List.ext_getElem
    · simp [toList]; omega
    · intro k hk hk'
      simp [toList, List.getD, hk']
  · simp at h

end Descriptor

end StereoMapping
