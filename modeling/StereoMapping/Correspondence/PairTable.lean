import StereoMapping.Error

/-!
# `Correspondence.PairTable` — a value for each pair of cameras of a window

Cameras are counted in steps back, 0 being the newest. The table holds one value for each pair
`source < sink` of its cameras, in the order `(0,1), (0,2), ..., (0,n-1), (1,2), ..., (n-2,n-1)`. Values are
counted and found in words of 64 bits. A count that leaves the words wraps around, and the table of so many
cameras has fewer values than pairs.

## Contents
- `pairCount`, `pairIndex`: how many values there are, and the position of a pair among them.
- `PairTable`, `PairTable.create`, `PairTable.get`, `PairTable.set`, `PairTable.pairs`.
- `PairTable.shift`: the table one step later.
-/

namespace StereoMapping

/-- Values of a table of `n` cameras, which make `n * (n - 1)` ordered pairs. -/
def pairCount (n : Nat) : Nat := (n.toUInt64 * (n - 1).toUInt64 / 2).toNat

/-- Position of a pair of `n` cameras. The rows before `source` hold `(n-1) + ... + (n-source)` pairs. -/
def pairIndex (n source sink : Nat) : Nat :=
  let n := n.toUInt64
  let a := source.toUInt64
  let b := sink.toUInt64
  (a * (2 * n - a - 1) / 2 + (b - a - 1)).toNat

/-- One value for each pair of cameras. -/
structure PairTable (α : Type) where
  cameras : Nat
  /-- Values in the order of the pairs. -/
  values : Array α
  deriving DecidableEq

namespace PairTable

variable {α : Type}

/-- Bytes that a value takes in the table, which holds it by reference. -/
def valueBytes : Nat := 24

/-- The table of one value for all pairs. -/
def filled (n : Nat) (a : α) : PairTable α := ⟨n, Array.replicate (pairCount n) a⟩

/-- The table of one value, if its values can be allocated. -/
def create (n : Nat) (a : α) : Except Error (PairTable α) :=
  if 0x8000000000000000 ≤ valueBytes * pairCount n then throw (.breach .capacityOverflow)
  else pure (filled n a)

/-- Position of a pair of the table. -/
def indexOf (t : PairTable α) (source sink : Nat) : Except Error Nat :=
  if source < sink ∧ sink < t.cameras then pure (pairIndex t.cameras source sink)
  else throw (.breach (.cameraPair source sink t.cameras))

/-- Value of a pair. -/
def get (t : PairTable α) (source sink : Nat) : Except Error α := do
  let index ← t.indexOf source sink
  match t.values[index]? with
  | some a => pure a
  | none => throw (.breach .indexOutOfRange)

/-- The table with the value of one pair replaced. -/
def set (t : PairTable α) (source sink : Nat) (a : α) : Except Error (PairTable α) := do
  let index ← t.indexOf source sink
  if index < t.values.size then pure { t with values := t.values.setIfInBounds index a }
  else throw (.breach .indexOutOfRange)

/-- Values with their pairs, the first of them given. A row of pairs is followed by the next source. -/
def pairsFrom (n source sink : Nat) : List α → List ((Nat × Nat) × α)
  | [] => []
  | a :: rest =>
    if sink < n then
      ((source, sink), a) ::
        if sink + 1 < n then pairsFrom n source (sink + 1) rest
        else pairsFrom n (source + 1) (source + 2) rest
    else []

/-- Pairs with their values, in order. -/
def pairs (t : PairTable α) : List ((Nat × Nat) × α) := pairsFrom t.cameras 0 1 t.values.toList

/-- Writes a value to the pair one step further back, unless that leaves the table. -/
def moveBack (next : PairTable α) (entry : (Nat × Nat) × α) : Except Error (PairTable α) :=
  if entry.1.2 + 1 < next.cameras then next.set (entry.1.1 + 1) (entry.1.2 + 1) entry.2 else pure next

/-- The table of `n` cameras one step later: every camera is one step further back, a new camera 0 has
the value `fresh` in all its pairs, and pairs that leave the table are dropped. -/
def shift (t : PairTable α) (n : Nat) (fresh : α) : Except Error (PairTable α) := do
  t.pairs.foldlM moveBack (← create n fresh)

end PairTable

end StereoMapping
