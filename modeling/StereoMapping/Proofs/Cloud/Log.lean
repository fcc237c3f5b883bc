import StereoMapping.Proofs.Cloud.Additions
import StereoMapping.Proofs.Keypoint.Features

/-!
# `Proofs.Cloud.Log` — a map as the log of what it was given

Under the two policies that do not mix observations a store is determined by the list of what was recorded in
it: a cell is occupied if a point of the list fell into it, and it holds the first such point, or the last one.
What is read from a store are its voxels within a radius, one for each cell, in the order of the cells.

## Contents
- `Cell.Precedes`, `Cell.compare_lt_iff`: the order of the cells.
- `Voxel.join`, `VoxelStore.getElem?_foldl_add`: a cell after a series of voxels, under any policy.
- `VoxelStore.inCell`, `getElem?_record_keepFirst`, `getElem?_record_replace`, `mem_record`: a store after a
  series of observations.
- `VoxelStore.Logs`, `logs_record`: a store that is determined by a list of observations.
- `Voxel.near`, `Voxel.seenFrom`, `VoxelStore.extract_eq`, `VoxelMap.sceneAt_eq`, `featuresAt_eq`: what is read.
- `VoxelMap.Blank`, `LogOf`, `ReadInOrder`, `Answers`, `additions_are_logged`: a map after a series of additions.
-/

namespace StereoMapping

variable {S D : Type}

/-! ## The order of the cells -/

/-- The first coordinate in which two cells differ is smaller. -/
def Cell.Precedes (a b : Cell) : Prop :=
  a.i < b.i ∨ (a.i = b.i ∧ (a.j < b.j ∨ (a.j = b.j ∧ a.k < b.k)))

theorem Cell.compare_lt_iff {a b : Cell} : compare a b = .lt ↔ a.Precedes b := by
  show compareLex (compareOn Cell.i) (compareLex (compareOn Cell.j) (compareOn Cell.k)) a b = .lt ↔ _
  simp only [compareLex, compareOn, Ordering.then_eq_lt, Std.compare_eq_lt, Std.compare_eq_iff_eq]
  exact Iff.rfl

/-! ## A store after a series of observations -/

namespace Voxel

variable [Scalar S]

/-- The voxel of a cell that one more falls into, by what the cell held. -/
def join (policy : FusionPolicy) (held : Option (Voxel S)) (v : Voxel S) : Voxel S :=
  match held with
  | some held => held.fuse policy v
  | none => v

theorem foldl_join_keepFirst (held : Option (Voxel S)) (vs : List (Voxel S)) :
    vs.foldl (fun held v => some (join .keepFirst held v)) held = held.or vs.head? := by
  induction vs generalizing held with
  | nil => exact Option.or_none.symm
  | cons v vs ih =>
    rw [List.foldl_cons, ih]
    cases held <;> rfl

theorem foldl_join_replace (held : Option (Voxel S)) (vs : List (Voxel S)) :
    vs.foldl (fun held v => some (join .replace held v)) held = vs.getLast?.or held := by
  induction vs generalizing held with
  | nil => rfl
  | cons v vs ih =>
    have hlast : join .replace held v = v := by cases held <;> rfl
    rw [List.foldl_cons, ih, hlast, List.getLast?_cons]
    cases vs.getLast? <;> rfl

end Voxel

namespace VoxelStore

variable [Scalar S]

/-- The observations whose points fall into a cell, in order. -/
def inCell (resolution : S) (log : List (Vec3 S × Descriptor S)) (c : Cell) :
    List (Vec3 S × Descriptor S) :=
  log.filter fun e => Cell.ofPoint resolution e.1 = c

/-- One more voxel changes its own cell. -/
theorem getElem?_add_self (policy : FusionPolicy) (resolution : S) (store : VoxelStore S) (v : Voxel S) :
    (add policy resolution store v)[Cell.ofPoint resolution v.point]?
      = some (Voxel.join policy store[Cell.ofPoint resolution v.point]? v) := by
  unfold add insert
  rw [Std.TreeMap.getElem?_alter, if_pos Std.ReflCmp.compare_self]
  cases store[Cell.ofPoint resolution v.point]? <;> rfl

theorem getElem?_add_of_ne (policy : FusionPolicy) {resolution : S} (store : VoxelStore S) {v : Voxel S}
    {c : Cell} (h : Cell.ofPoint resolution v.point ≠ c) :
    (add policy resolution store v)[c]? = store[c]? := by
  unfold add insert
  rw [Std.TreeMap.getElem?_alter, if_neg (fun hc => h (Std.LawfulEqCmp.eq_of_compare hc))]

/-- What holds of every entry holds after one more voxel, if it holds of what that voxel's cell becomes. -/
theorem forall_add {P : Cell → Voxel S → Prop} {policy : FusionPolicy} {resolution : S} {store : VoxelStore S}
    {v : Voxel S} (hstore : ∀ (c : Cell) (w : Voxel S), store[c]? = some w → P c w)
    (hnew : P (Cell.ofPoint resolution v.point) v)
    (hfuse : ∀ held, store[Cell.ofPoint resolution v.point]? = some held →
      P (Cell.ofPoint resolution v.point) (held.fuse policy v)) :
    ∀ (c : Cell) (w : Voxel S), (add policy resolution store v)[c]? = some w → P c w := by
  intro c w hw
  by_cases hc : Cell.ofPoint resolution v.point = c
  · subst hc
    rw [getElem?_add_self] at hw
    obtain rfl := Option.some.inj hw
    cases hheld : store[Cell.ofPoint resolution v.point]? with
    | none => exact hnew
    | some held => exact hfuse held hheld
  · rw [getElem?_add_of_ne policy store hc] at hw
    exact hstore c w hw

/-- **A series of voxels** meets in each cell those of them that fall into it, in order. -/
theorem getElem?_foldl_add (policy : FusionPolicy) (resolution : S) (store : VoxelStore S)
    (vs : List (Voxel S)) (c : Cell) :
    (vs.foldl (add policy resolution) store)[c]?
      = (vs.filter fun v => Cell.ofPoint resolution v.point = c).foldl
          (fun held v => some (Voxel.join policy held v)) store[c]? := by
  induction vs generalizing store with
  | nil => rfl
  | cons v vs ih =>
    rw [List.foldl_cons, ih]
    by_cases h : Cell.ofPoint resolution v.point = c
    · subst h
      rw [getElem?_add_self, List.filter_cons_of_pos (by simp), List.foldl_cons]
    · rw [getElem?_add_of_ne policy store h, List.filter_cons_of_neg (by simpa using h)]

/-- A record adds its observations as voxels. -/
theorem record_eq (policy : FusionPolicy) (resolution : S) (store : VoxelStore S)
    (log : List (Vec3 S × Descriptor S)) :
    record policy resolution store log
      = (log.map fun e => Voxel.single e.1 e.2).foldl (add policy resolution) store := by
  rw [List.foldl_map]
  rfl

/-- A cell meets the observations of a record that fall into it. -/
theorem getElem?_record (policy : FusionPolicy) (resolution : S) (store : VoxelStore S)
    (log : List (Vec3 S × Descriptor S)) (c : Cell) :
    (record policy resolution store log)[c]?
      = ((inCell resolution log c).map fun e => Voxel.single e.1 e.2).foldl
          (fun held v => some (Voxel.join policy held v)) store[c]? := by
  rw [record_eq, getElem?_foldl_add, List.filter_map]
  rfl

/-- **The first observation stays**: an empty cell takes the first point that falls into it. -/
theorem getElem?_record_keepFirst (resolution : S) (store : VoxelStore S)
    (log : List (Vec3 S × Descriptor S)) (c : Cell) :
    (record .keepFirst resolution store log)[c]?
      = store[c]?.or ((inCell resolution log c).head?.map fun e => .single e.1 e.2) := by
  rw [getElem?_record, Voxel.foldl_join_keepFirst, List.head?_map]

/-- **The last observation stays**: a cell holds the last point that fell into it. -/
theorem getElem?_record_replace (resolution : S) (store : VoxelStore S)
    (log : List (Vec3 S × Descriptor S)) (c : Cell) :
    (record .replace resolution store log)[c]?
      = ((inCell resolution log c).getLast?.map fun e => .single e.1 e.2).or store[c]? := by
  rw [getElem?_record, Voxel.foldl_join_replace, List.getLast?_map]

/-- One more voxel occupies its cell and frees none. -/
theorem mem_add {policy : FusionPolicy} {resolution : S} {store : VoxelStore S} {v : Voxel S} {c : Cell} :
    c ∈ add policy resolution store v ↔ c ∈ store ∨ Cell.ofPoint resolution v.point = c := by
  rw [Std.TreeMap.mem_iff_isSome_getElem?, Std.TreeMap.mem_iff_isSome_getElem?]
  by_cases h : Cell.ofPoint resolution v.point = c
  · subst h
    rw [getElem?_add_self]
    simp
  · rw [getElem?_add_of_ne policy store h]
    simp [h]

/-- **The occupied cells** are those that some voxel fell into, whatever the policy. -/
theorem mem_foldl_add {policy : FusionPolicy} {resolution : S} {store : VoxelStore S} {vs : List (Voxel S)}
    {c : Cell} : c ∈ vs.foldl (add policy resolution) store
      ↔ c ∈ store ∨ ∃ v ∈ vs, Cell.ofPoint resolution v.point = c := by
  induction vs generalizing store with
  | nil => simp
  | cons v vs ih =>
    rw [List.foldl_cons, ih, mem_add]
    simp only [List.mem_cons, exists_eq_or_imp, or_assoc]

theorem mem_record {policy : FusionPolicy} {resolution : S} {store : VoxelStore S}
    {log : List (Vec3 S × Descriptor S)} {c : Cell} :
    c ∈ record policy resolution store log ↔ c ∈ store ∨ ∃ e ∈ log, Cell.ofPoint resolution e.1 = c := by
  rw [record_eq, mem_foldl_add]
  refine or_congr_right ⟨?_, ?_⟩
  · rintro ⟨v, hv, hc⟩
    obtain ⟨e, he, rfl⟩ := List.mem_map.mp hv
    exact ⟨e, he, hc⟩
  · rintro ⟨e, he, hc⟩
    exact ⟨_, List.mem_map_of_mem he, hc⟩

/-- **A store that is a log**, by the policy it was recorded with. -/
structure Logs (policy : FusionPolicy) (resolution : S) (store : VoxelStore S)
    (log : List (Vec3 S × Descriptor S)) : Prop where
  occupied : ∀ c, c ∈ store ↔ ∃ e ∈ log, Cell.ofPoint resolution e.1 = c
  first : policy = .keepFirst → ∀ c,
    store[c]? = (inCell resolution log c).head?.map fun e => .single e.1 e.2
  last : policy = .replace → ∀ c,
    store[c]? = (inCell resolution log c).getLast?.map fun e => .single e.1 e.2

theorem logs_record (policy : FusionPolicy) (resolution : S) (log : List (Vec3 S × Descriptor S)) :
    Logs policy resolution (record policy resolution ∅ log) log := by
  constructor
  · intro c
    rw [mem_record]
    simp
  · rintro rfl c
    rw [getElem?_record_keepFirst]
    simp
  · rintro rfl c
    rw [getElem?_record_replace]
    simp

end VoxelStore

/-! ## What is read from a store -/

namespace Voxel

variable [Scalar D] [Precision S D]

/-- Whether a voxel is within a radius of the origin of a frame, bound included. -/
def near (frame : Motion D) (radius : S) (v : Voxel S) : Bool :=
  let p : Vec3 D := v.point.widen
  Scalar.le (frame.translation - p).norm (widen radius)

/-- The point of a voxel in a frame. -/
def seenFrom (frame : Motion D) (v : Voxel S) : Vec3 S :=
  (frame.inverse.apply v.point.widen).narrow

end Voxel

namespace VoxelStore

/-- **A store listed** cell by cell, in increasing order and without repetition. -/
structure Listed (store : VoxelStore S) (cells : List (Cell × Voxel S)) : Prop where
  increasing : cells.Pairwise fun a b => a.1.Precedes b.1
  complete : ∀ c v, (c, v) ∈ cells ↔ store[c]? = some v

theorem listed_toList (store : VoxelStore S) : Listed store store.toList := by
  constructor
  · have hordered := Std.TreeMap.ordered_keys_toList (t := store)
    exact hordered.imp fun h => Cell.compare_lt_iff.mp h
  · intro c v
    exact Std.TreeMap.mem_toList_iff_getElem?_eq_some

variable [Scalar D] [Precision S D]

/-- The voxels within the radius, in the order of the cells. -/
theorem extract_eq (store : VoxelStore S) (frame : Motion D) (radius : S) :
    store.extract frame radius
      = (store.voxels.filter (Voxel.near frame radius)).map fun v => (v.seenFrom frame, v) := by
  rw [← List.filterMap_eq_map, List.filterMap_filter]
  rfl

end VoxelStore

namespace VoxelMap

variable [Scalar S] [Scalar D]

section Reading

variable [Precision S D] {pose : Pose D} {motion : Motion D} {radius : S}

/-- The points that are read from a map. -/
theorem sceneAt_eq (m : VoxelMap S D) (hmotion : pose.toMotion? = some motion)
    (hradius : checkRadius radius = .ok ()) :
    m.sceneAt pose radius
      = .ok (.ofPoints ((m.points.voxels.filter (Voxel.near motion radius)).map
          (Voxel.seenFrom motion)).toArray) := by
  simp only [sceneAt, hradius, motionOf, hmotion, VoxelStore.extract_eq, List.map_map, bind, Except.bind,
    pure, Except.pure]
  rfl

/-- The features that are read from a map are put into one collection. -/
theorem featuresAt_eq (m : VoxelMap S D) (hmotion : pose.toMotion? = some motion)
    (hradius : checkRadius radius = .ok ()) :
    m.featuresAt pose radius
      = Features.empty.addDescribedAll ((m.features.voxels.filter (Voxel.near motion radius)).map
          fun v => (v.seenFrom motion, v.descriptor.toList)) := by
  simp only [featuresAt, hradius, motionOf, hmotion, VoxelStore.extract_eq, bind, Except.bind, pure,
    Except.pure, Features.addDescribedAll, List.foldlM_map]

end Reading

/-! ## A map after a series of additions -/

/-- A map is created without content if its resolution passes. -/
theorem create_eq_ok_iff {resolution : S} {policy : FusionPolicy} {m : VoxelMap S D} :
    create resolution policy = .ok m ↔
      checkResolution resolution = .ok () ∧ m = ⟨resolution, policy, ∅, ∅, .identity⟩ := by
  unfold create
  cases checkResolution resolution with
  | error e =>
    constructor
    · rintro ⟨⟩
    · rintro ⟨⟨⟩, _⟩
  | ok _ =>
    constructor
    · intro h
      exact ⟨rfl, (Except.ok.inj h).symm⟩
    · rintro ⟨_, rfl⟩
      rfl

/-- A map that was given nothing since it was created or cleared. -/
inductive Blank : VoxelMap S D → Prop
  | created {resolution : S} {policy : FusionPolicy} {m : VoxelMap S D}
      (h : create resolution policy = .ok m) : Blank m
  | cleared (m : VoxelMap S D) : Blank m.clear

theorem Blank.stores_eq {m : VoxelMap S D} (h : m.Blank) : m.points = ∅ ∧ m.features = ∅ := by
  cases h with
  | cleared m => exact ⟨rfl, rfl⟩
  | created hcreate =>
    obtain ⟨_, rfl⟩ := create_eq_ok_iff.mp hcreate
    exact ⟨rfl, rfl⟩

variable [Precision S D]

/-- Both stores of a map are logs: of the placed points of the clouds, and of those of the features. -/
structure LogOf (m : VoxelMap S D) (policy : FusionPolicy) (resolution : S) (log : List (Addition S D)) :
    Prop where
  points : m.points.Logs policy resolution (log.flatMap Addition.toPoints)
  features : m.features.Logs policy resolution (log.flatMap Addition.toFeatures)

/-- What is read from a map are its voxels within the radius, listed in the order of their cells. -/
structure ReadInOrder (m : VoxelMap S D) (points features : List (Cell × Voxel S)) : Prop where
  points_listed : m.points.Listed points
  features_listed : m.features.Listed features
  scene : ∀ {pose : Pose D} {motion : Motion D} {radius : S}, pose.toMotion? = some motion →
    checkRadius radius = .ok () →
    m.sceneAt pose radius = .ok (.ofPoints
      (((points.map Prod.snd).filter (Voxel.near motion radius)).map (Voxel.seenFrom motion)).toArray)
  featured : ∀ {pose : Pose D} {motion : Motion D} {radius : S}, pose.toMotion? = some motion →
    checkRadius radius = .ok () →
    m.featuresAt pose radius = Features.empty.addDescribedAll
      (((features.map Prod.snd).filter (Voxel.near motion radius)).map
        fun v => (v.seenFrom motion, v.descriptor.toList))

/-- What an addition answers, and what it leaves as it is. -/
structure Answers (m : VoxelMap S D) (a : Addition S D) : Prop where
  counted : a.pose.isValid = true → (m.add a).2 = .ok a.valid.length ∧ (m.add a).1.lastPose = a.pose
  refused : a.pose.isValid = false → m.add a = (m, .error .invalidPose)
  features_of_cloud : ∀ cloud pose, a = .cloud cloud pose → (m.add a).1.features = m.features
  points_of_features : ∀ features pose, a = .features features pose → (m.add a).1.points = m.points

theorem answers (m : VoxelMap S D) (a : Addition S D) : m.Answers a := by
  obtain ⟨hpoints, hfeatures, _, _⟩ := m.stores_add a
  constructor
  · intro h
    rw [m.add_valid h]
    exact ⟨rfl, rfl⟩
  · intro h
    exact m.add_invalid h
  · rintro cloud pose rfl
    rw [hfeatures]
    rfl
  · rintro features pose rfl
    rw [hpoints]
    rfl

theorem readInOrder (m : VoxelMap S D) : m.ReadInOrder m.points.toList m.features.toList where
  points_listed := m.points.listed_toList
  features_listed := m.features.listed_toList
  scene := m.sceneAt_eq
  featured := m.featuresAt_eq

/-- **A map is the log of its additions** since it was created or cleared. Each store holds, in the cells of the
points that were placed in it and in no other, the first or the last of them by the policy. It is read cell by
cell in increasing order. An addition counts its valid points and leaves the other store; one from an invalid
pose leaves the whole map. -/
theorem additions_are_logged {start : VoxelMap S D} (hstart : start.Blank) (log : List (Addition S D)) :
    (start.addAll log).LogOf start.policy start.resolution log ∧
      (∃ points features, (start.addAll log).ReadInOrder points features) ∧
      ∀ a, (start.addAll log).Answers a := by
  obtain ⟨hpoints, hfeatures⟩ := hstart.stores_eq
  obtain ⟨hpoints', hfeatures', _, _⟩ := start.stores_addAll log
  rw [hpoints] at hpoints'
  rw [hfeatures] at hfeatures'
  refine ⟨⟨?_, ?_⟩, ⟨_, _, (start.addAll log).readInOrder⟩, (start.addAll log).answers⟩
  · rw [hpoints']
    exact VoxelStore.logs_record start.policy start.resolution _
  · rw [hfeatures']
    exact VoxelStore.logs_record start.policy start.resolution _

/-- A point, then a cloud from a pose without orientation, then two points of which the first falls into the
occupied cell. -/
def repeatedLog : List (Addition Float32 Float) :=
  [.cloud ⟨#[⟨0.25, 0.25, 0.25⟩], 0⟩ .identity,
    .cloud ⟨#[⟨5, 5, 5⟩], 0⟩ ⟨.zero, ⟨0, 0, 0, 0⟩⟩,
    .cloud ⟨#[⟨0.5, 0.5, 0.75⟩, ⟨-1.5, 0.5, 0.5⟩], 0⟩ .identity]

/-- The cell that was observed twice holds its first point, and the refused cloud is in none. -/
theorem additions_are_logged_repeated :
    ∃ start : VoxelMap Float32 Float, start.Blank ∧ start.policy = .keepFirst ∧
      (start.addAll repeatedLog).points[(⟨0, 0, 0⟩ : Cell)]?
        = some (.single ⟨0.25, 0.25, 0.25⟩ .empty) ∧
      (⟨5, 5, 5⟩ : Cell) ∉ (start.addAll repeatedLog).points := by
  have hcheck : checkResolution (1 : Float32) = .ok () := if_pos (by decide +kernel)
  have hblank : (⟨1, .keepFirst, ∅, ∅, .identity⟩ : VoxelMap Float32 Float).Blank :=
    .created (create_eq_ok_iff.mpr ⟨hcheck, rfl⟩)
  obtain ⟨⟨hpoints, _⟩, _, _⟩ := additions_are_logged hblank repeatedLog
  refine ⟨_, hblank, rfl, ?_, ?_⟩
  · rw [hpoints.first rfl]
    decide +kernel
  · rw [hpoints.occupied]
    decide +kernel

end VoxelMap
end StereoMapping
