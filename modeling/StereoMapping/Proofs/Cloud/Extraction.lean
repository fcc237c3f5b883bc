import StereoMapping.Proofs.Cloud.Log

/-!
# `Proofs.Cloud.Extraction` — which features can be read back

The features of a map are read into one collection, which has one descriptor size, while the map takes
collections of different sizes. What can be read is therefore decided by the voxels within the radius: if their
descriptors that are not empty have one length, every voxel is read with its descriptor; otherwise the reading
fails at the first voxel that differs from those before it. A map whose collections all had one size can always
be read, whatever was done to it in between, since no change of a map makes a new descriptor.

## Contents
- `VoxelStore.Each`: a property of all stored descriptors; `VoxelMap.each_editAll`: changes of a map keep it.
- `OneSize`, `oneLength_iff`, `FirstOther`: voxels whose descriptors go into one collection, and the first that
  does not.
- `MapEdit.Proper`, `MapEdit.SizeIs`: what is asked of the collections.
- `VoxelMap.Extracts`, `VoxelMap.featuresAt_by_size`: what a reading answers.
-/

namespace StereoMapping

variable {S D : Type} [Scalar S]

/-! ## Stored descriptors -/

/-- Fusion keeps one of the two descriptors. -/
theorem Voxel.descriptor_fuse (policy : FusionPolicy) (v other : Voxel S) :
    (v.fuse policy other).descriptor = v.descriptor ∨ (v.fuse policy other).descriptor = other.descriptor := by
  cases policy with
  | keepFirst => exact .inl rfl
  | replace => exact .inr rfl
  | average =>
    show (if v.descriptor.isEmpty then other.descriptor else v.descriptor) = _ ∨
      (if v.descriptor.isEmpty then other.descriptor else v.descriptor) = _
    cases v.descriptor.isEmpty with
    | true => exact .inr rfl
    | false => exact .inl rfl

namespace VoxelStore

/-- Every stored descriptor has a property. -/
def Each (P : Descriptor S → Prop) (store : VoxelStore S) : Prop :=
  ∀ (c : Cell) (v : Voxel S), store[c]? = some v → P v.descriptor

variable {P : Descriptor S → Prop} {policy : FusionPolicy} {resolution : S}

omit [Scalar S] in
theorem each_empty : Each P (∅ : VoxelStore S) := by
  intro c v h
  simp at h

omit [Scalar S] in
theorem Each.voxels {store : VoxelStore S} (h : store.Each P) : ∀ v ∈ store.voxels, P v.descriptor := by
  intro v hv
  obtain ⟨⟨c, w⟩, hmem, rfl⟩ := List.mem_map.mp hv
  exact h c w (Std.TreeMap.mem_toList_iff_getElem?_eq_some.mp hmem)

theorem Each.add {store : VoxelStore S} (h : store.Each P) {v : Voxel S} (hv : P v.descriptor) :
    (VoxelStore.add policy resolution store v).Each P := by
  refine forall_add h hv ?_
  intro held hheld
  rcases held.descriptor_fuse policy v with heq | heq
  · exact heq ▸ h _ held hheld
  · exact heq ▸ hv

theorem Each.foldl_add {store : VoxelStore S} (h : store.Each P) {vs : List (Voxel S)}
    (hvs : ∀ v ∈ vs, P v.descriptor) : (vs.foldl (VoxelStore.add policy resolution) store).Each P := by
  induction vs generalizing store with
  | nil => exact h
  | cons v vs ih =>
    exact ih (h.add (hvs v List.mem_cons_self)) fun w hw => hvs w (List.mem_cons_of_mem v hw)

/-- Gathering the voxels again makes no new descriptor. -/
theorem Each.rebucket {store : VoxelStore S} (h : store.Each P) : (store.rebucket policy resolution).Each P :=
  each_empty.foldl_add h.voxels

theorem Each.record {store : VoxelStore S} (h : store.Each P) {log : List (Vec3 S × Descriptor S)}
    (hlog : ∀ e ∈ log, P e.2) : (VoxelStore.record policy resolution store log).Each P := by
  rw [record_eq]
  refine h.foldl_add ?_
  intro v hv
  obtain ⟨e, he, rfl⟩ := List.mem_map.mp hv
  exact hlog e he

end VoxelStore

/-! ## Descriptors of a map after its changes -/

/-- Every descriptor that a change brings into a map has a property. -/
def MapEdit.Each (P : Descriptor S → Prop) : MapEdit S D → Prop
  | .add (.features fs _) => ∀ f ∈ fs.entries.toList, P f.descriptor
  | _ => True

variable [Scalar D] [Precision S D] {P : Descriptor S → Prop}

/-- What is placed has the descriptor of something that was observed. -/
theorem Addition.exists_of_mem_placed {a : Addition S D} {e : Vec3 S × Descriptor S} (h : e ∈ a.placed) :
    ∃ o ∈ a.valid, o.2 = e.2 := by
  unfold placed at h
  cases hmotion : a.pose.toMotion? with
  | none =>
    rw [hmotion] at h
    exact absurd h List.not_mem_nil
  | some motion =>
    rw [hmotion] at h
    obtain ⟨o, ho, rfl⟩ := List.mem_map.mp h
    exact ⟨o, ho, rfl⟩

theorem Addition.each_toFeatures {a : Addition S D} (h : (MapEdit.add a).Each P) :
    ∀ e ∈ a.toFeatures, P e.2 := by
  intro e he
  cases a with
  | cloud c pose => exact absurd he List.not_mem_nil
  | features fs pose =>
    obtain ⟨o, ho, hsame⟩ := exists_of_mem_placed he
    obtain ⟨f, hf, rfl⟩ := List.mem_map.mp ho
    exact hsame ▸ h f (List.mem_filter.mp hf).1

namespace VoxelMap

/-- A change of a map stores no descriptor but those it brings. -/
theorem each_edit {m : VoxelMap S D} (h : m.features.Each P) {edit : MapEdit S D} (hedit : edit.Each P) :
    (m.edit edit).features.Each P := by
  cases edit with
  | add a =>
    obtain ⟨_, hfeatures, _, _⟩ := m.stores_add a
    show (m.add a).1.features.Each P
    rw [hfeatures]
    exact h.record (Addition.each_toFeatures hedit)
  | setResolution resolution =>
    cases hcheck : checkResolution resolution with
    | error e =>
      simp only [edit, m.setResolution_error hcheck]
      exact h
    | ok _ =>
      simp only [edit, m.setResolution_ok hcheck]
      exact h.rebucket
  | clear => exact VoxelStore.each_empty

/-- The map after some changes, those that were refused included. -/
def editAll (m : VoxelMap S D) (edits : List (MapEdit S D)) : VoxelMap S D := edits.foldl edit m

theorem each_editAll {m : VoxelMap S D} (h : m.features.Each P) {edits : List (MapEdit S D)}
    (hedits : ∀ e ∈ edits, e.Each P) : (m.editAll edits).features.Each P := by
  induction edits generalizing m with
  | nil => exact h
  | cons e rest ih =>
    exact ih (each_edit h (hedits e List.mem_cons_self)) fun a ha => hedits a (List.mem_cons_of_mem e ha)

end VoxelMap

/-! ## Voxels of one size -/

/-- Any two voxels that are described have descriptors of one length. -/
def OneSize (voxels : List (Voxel S)) : Prop :=
  ∀ v ∈ voxels, ∀ w ∈ voxels, v.descriptor.length ≠ 0 → w.descriptor.length ≠ 0 →
    v.descriptor.length = w.descriptor.length

/-- What a voxel is read as in a frame. -/
def Voxel.entry (frame : Motion D) (v : Voxel S) : Vec3 S × List S := (v.seenFrom frame, v.descriptor.toList)

theorem Voxel.entry_eq_nil_iff {frame : Motion D} {v : Voxel S}
    (h : v.descriptor.length ≤ descriptorCapacity) : (v.entry frame).2 = [] ↔ v.descriptor.length = 0 := by
  rw [← Descriptor.length_toList h]
  exact List.length_eq_zero_iff.symm

theorem oneLength_iff {frame : Motion D} {voxels : List (Voxel S)}
    (hfits : ∀ v ∈ voxels, v.descriptor.length ≤ descriptorCapacity) :
    OneLength (voxels.map (Voxel.entry frame)) ↔ OneSize voxels := by
  unfold OneLength OneSize
  simp only [List.forall_mem_map]
  refine forall₂_congr fun v hv => forall₂_congr fun w hw => ?_
  rw [Ne, Ne, Voxel.entry_eq_nil_iff (hfits v hv), Voxel.entry_eq_nil_iff (hfits w hw)]
  show (_ → _ → v.descriptor.toList.length = w.descriptor.toList.length) ↔ _
  rw [Descriptor.length_toList (hfits v hv), Descriptor.length_toList (hfits w hw)]

instance (voxels : List (Voxel S)) : Decidable (OneSize voxels) :=
  inferInstanceAs (Decidable (∀ v ∈ voxels, ∀ w ∈ voxels,
    v.descriptor.length ≠ 0 → w.descriptor.length ≠ 0 → v.descriptor.length = w.descriptor.length))

/-- A collection that is read as the entries of some voxels carries their descriptors. -/
theorem Features.Reads.carries {fs : Features (Vec3 S) S} {frame : Motion D} {voxels : List (Voxel S)}
    (h : fs.Reads (voxels.map (Voxel.entry frame)))
    (hfits : ∀ v ∈ voxels, v.descriptor.length ≤ descriptorCapacity) :
    (fs.entries.toList.map fun f => (f.point, f.descriptor.length, f.descriptor.toList))
      = voxels.map fun v => (v.seenFrom frame, v.descriptor.length, v.descriptor.toList) := by
  have hfeatures : (fs.entries.toList.map fun f => (f.point, f.descriptor.length, f.descriptor.toList))
      = (fs.entries.toList.map fun f => (f.point, f.descriptor.toList)).map fun e => (e.1, e.2.length, e.2) := by
    rw [List.map_map]
    refine List.map_congr_left ?_
    intro f hf
    rw [h.length_eq f hf]
    rfl
  have hvoxels : ((voxels.map (Voxel.entry frame)).map fun e => (e.1, e.2.length, e.2))
      = voxels.map fun v => (v.seenFrom frame, v.descriptor.length, v.descriptor.toList) := by
    rw [List.map_map]
    refine List.map_congr_left ?_
    intro v hv
    rw [← Descriptor.length_toList (hfits v hv)]
    rfl
  rw [hfeatures, h.entries_eq, hvoxels]

/-- **The first voxel of another size**: it is described, those before it have one size, and it has another. -/
structure FirstOther (voxels before : List (Voxel S)) (v : Voxel S) (size : Nat) : Prop where
  split : ∃ after, voxels = before ++ v :: after
  one_size : OneSize before
  size_held : size ≠ 0 ∧ ∃ w ∈ before, w.descriptor.length = size
  other : v.descriptor.length ≠ 0 ∧ v.descriptor.length ≠ size

/-- The entry that is refused is that of the first voxel of another size. -/
theorem exists_firstOther {frame : Motion D} {voxels : List (Voxel S)}
    (hfits : ∀ v ∈ voxels, v.descriptor.length ≤ descriptorCapacity) {before after : List (Vec3 S × List S)}
    {e : Vec3 S × List S} (hsplit : voxels.map (Voxel.entry frame) = before ++ e :: after)
    (hone : OneLength before) (hne : e.2 ≠ []) (hsome : firstLength before ≠ 0)
    (hother : e.2.length ≠ firstLength before) :
    ∃ vs v, FirstOther voxels vs v (firstLength before) ∧ before.length = vs.length ∧
      e.2.length = v.descriptor.length := by
  -- the series of entries is cut where the series of voxels is
  obtain ⟨vs, rest, hvoxels, rfl, hrest⟩ := List.map_eq_append_iff.mp hsplit
  obtain ⟨v, ws, rfl, rfl, rfl⟩ := List.map_eq_cons_iff.mp hrest
  have hbefore : ∀ w ∈ vs, w.descriptor.length ≤ descriptorCapacity := by
    intro w hw
    exact hfits w (hvoxels ▸ List.mem_append_left _ hw)
  have hfit : v.descriptor.length ≤ descriptorCapacity :=
    hfits v (hvoxels ▸ List.mem_append_right _ List.mem_cons_self)
  have hlength : (v.entry frame).2.length = v.descriptor.length := Descriptor.length_toList hfit
  refine ⟨vs, v, ⟨⟨ws, hvoxels⟩, (oneLength_iff hbefore).mp hone, ⟨hsome, ?_⟩, ?_, ?_⟩, List.length_map _,
    hlength⟩
  · obtain ⟨e, he, _, hsize⟩ := exists_of_firstLength hsome
    obtain ⟨w, hw, rfl⟩ := List.mem_map.mp he
    refine ⟨w, hw, ?_⟩
    rw [← hsize]
    exact (Descriptor.length_toList (hbefore w hw)).symm
  · rwa [Ne, Voxel.entry_eq_nil_iff hfit] at hne
  · rwa [hlength] at hother

/-! ## What a reading answers -/

/-- The collection of a change, if there is one, passes its check. -/
def MapEdit.Proper : MapEdit S D → Prop
  | .add (.features fs _) => fs.checkDescriptors = .ok ()
  | _ => True

/-- The collection of a change, if there is one, has no descriptors or descriptors of a size. -/
def MapEdit.SizeIs (size : Nat) : MapEdit S D → Prop
  | .add (.features fs _) => fs.descriptorSize = 0 ∨ fs.descriptorSize = size
  | _ => True

omit [Scalar D] [Precision S D] in
theorem MapEdit.Proper.each {edit : MapEdit S D} (h : edit.Proper) :
    edit.Each fun d => d.length ≤ descriptorCapacity := by
  match edit, h with
  | .add (.cloud _ _), _ => trivial
  | .setResolution _, _ => trivial
  | .clear, _ => trivial
  | .add (.features fs _), h =>
    intro f hf
    have hproper := Features.isProper_iff.mp (Features.checkDescriptors_eq_ok_iff.mp h f hf)
    exact Descriptor.length_le_of_hasCleanPadding hproper.2

omit [Scalar D] [Precision S D] in
theorem MapEdit.Proper.each_size {edit : MapEdit S D} (h : edit.Proper) {size : Nat} (hsize : edit.SizeIs size) :
    edit.Each fun d => d.length = 0 ∨ d.length = size := by
  match edit, h, hsize with
  | .add (.cloud _ _), _, _ => trivial
  | .setResolution _, _, _ => trivial
  | .clear, _, _ => trivial
  | .add (.features fs _), h, hsize =>
    intro f hf
    obtain ⟨hlength, _⟩ := Features.isProper_iff.mp (Features.checkDescriptors_eq_ok_iff.mp h f hf)
    rcases hsize with hnone | hsome
    · exact .inl (hlength.elim id fun heq => heq.trans hnone)
    · exact hlength.imp_right fun heq => heq.trans hsome

namespace VoxelMap

/-- The features of a map within a radius of the origin of a frame. -/
def featuresWithin (m : VoxelMap S D) (frame : Motion D) (radius : S) : List (Voxel S) :=
  m.features.voxels.filter (Voxel.near frame radius)

/-- **What a reading of the features answers**: every voxel within the radius with its descriptor, or the first
one of another size than those before it. -/
structure Extracts (m : VoxelMap S D) (pose : Pose D) (frame : Motion D) (radius : S) : Prop where
  answer : OneSize (m.featuresWithin frame radius) → ∃ fs, m.featuresAt pose radius = .ok fs ∧
    (fs.entries.toList.map fun f => (f.point, f.descriptor.length, f.descriptor.toList))
      = (m.featuresWithin frame radius).map fun v =>
          (v.seenFrom frame, v.descriptor.length, v.descriptor.toList)
  refusal : ¬ OneSize (m.featuresWithin frame radius) → ∃ before v size,
    FirstOther (m.featuresWithin frame radius) before v size ∧
      m.featuresAt pose radius = .error (.malformedDescriptor before.length v.descriptor.length size)

theorem extracts {m : VoxelMap S D} (hfits : m.features.Each fun d => d.length ≤ descriptorCapacity)
    {pose : Pose D} {frame : Motion D} {radius : S} (hframe : pose.toMotion? = some frame)
    (hradius : checkRadius radius = .ok ()) : m.Extracts pose frame radius := by
  have hwithin : ∀ v ∈ m.featuresWithin frame radius, v.descriptor.length ≤ descriptorCapacity := by
    intro v hv
    exact hfits.voxels v (List.mem_filter.mp hv).1
  have hread : m.featuresAt pose radius
      = Features.empty.addDescribedAll ((m.featuresWithin frame radius).map (Voxel.entry frame)) :=
    m.featuresAt_eq hframe hradius
  have hcapacity : ∀ e ∈ (m.featuresWithin frame radius).map (Voxel.entry frame),
      e.2.length ≤ descriptorCapacity := by
    intro e he
    obtain ⟨v, _, rfl⟩ := List.mem_map.mp he
    exact v.descriptor.length_toList_le
  have hall := Features.reads_empty.addDescribedAll (fun _ h => absurd h List.not_mem_nil)
    ((m.featuresWithin frame radius).map (Voxel.entry frame)) hcapacity
  rw [List.nil_append, oneLength_iff hwithin, ← hread] at hall
  rcases hall with ⟨hone, fs, hok, hreads⟩ | ⟨hmixed, _, e, _, hsplit, hbefore, hne, hsome, hother, herror⟩
  · exact ⟨fun _ => ⟨fs, hok, hreads.carries hwithin⟩, fun hmixed => absurd hone hmixed⟩
  · refine ⟨fun hone => absurd hone hmixed, fun _ => ?_⟩
    obtain ⟨vs, v, hfirst, hcount, hlength⟩ := exists_firstOther hwithin hsplit hbefore hne hsome hother
    rw [hcount, hlength] at herror
    exact ⟨vs, v, _, hfirst, herror⟩

/-- **Features are read back by their size.** After any changes of a created map, with any collections that pass
their check, around a valid pose: if the voxels within the radius have one size, they are all read with their
descriptors; if they do not, the reading fails at the first one of another size. They do have one size if all the
collections had. -/
theorem featuresAt_by_size {resolution : S} {policy : FusionPolicy} {start : VoxelMap S D}
    (hcreate : create resolution policy = .ok start) {edits : List (MapEdit S D)}
    (hproper : ∀ e ∈ edits, e.Proper) {pose : Pose D} (hpose : pose.isValid = true) {radius : S}
    (hradius : checkRadius radius = .ok ()) :
    ∃ frame, pose.toMotion? = some frame ∧ (start.editAll edits).Extracts pose frame radius ∧
      ∀ size, (∀ e ∈ edits, e.SizeIs size) → OneSize ((start.editAll edits).featuresWithin frame radius) := by
  have hempty : ∀ P, start.features.Each P := by
    intro P
    rw [(Blank.created hcreate).stores_eq.2]
    exact VoxelStore.each_empty
  obtain ⟨frame, hframe, _⟩ := motionOf_ok hpose
  refine ⟨frame, hframe, extracts ?_ hframe hradius, ?_⟩
  · exact each_editAll (hempty _) fun e he => (hproper e he).each
  · intro size hsize
    have heach : (start.editAll edits).features.Each fun d => d.length = 0 ∨ d.length = size :=
      each_editAll (hempty _) fun e he => (hproper e he).each_size (hsize e he)
    have hone : ∀ v ∈ (start.editAll edits).featuresWithin frame radius,
        v.descriptor.length ≠ 0 → v.descriptor.length = size := by
      intro v hv hsome
      exact (heach.voxels v (List.mem_filter.mp hv).1).resolve_left hsome
    intro v hv w hw hvsome hwsome
    exact (hone v hv hvsome).trans (hone w hw hwsome).symm

/-! ### Collections of different sizes -/

/-- A map of unit cells without content. -/
def unitMap : VoxelMap Float32 Float := ⟨1, .keepFirst, ∅, ∅, .identity⟩

theorem create_unitMap : create 1 .keepFirst = .ok unitMap :=
  create_eq_ok_iff.mpr ⟨if_pos (by decide +kernel), rfl⟩

/-- One feature with some components, observed from the origin. -/
def sample (point : Vec3 Float32) (components : List Float32) : MapEdit Float32 Float :=
  .add (.features ⟨#[⟨point, (Descriptor.ofList? components).getD .empty⟩], components.length⟩ .identity)

/-- Whether a collection is proper does not depend on where its features are. -/
theorem proper_sample {point : Vec3 Float32} {components : List Float32}
    (h : Features.isProper components.length ((Descriptor.ofList? components).getD .empty) = true) :
    (sample point components).Proper := by
  refine Features.checkDescriptors_eq_ok_iff.mpr ?_
  intro f hf
  obtain rfl := List.mem_singleton.mp hf
  exact h

/-- A feature with one component, then one with two. -/
def twoSizes (first second : Vec3 Float32) : List (MapEdit Float32 Float) :=
  [sample first [1], sample second [1, 2]]

theorem proper_twoSizes (first second : Vec3 Float32) : ∀ e ∈ twoSizes first second, e.Proper := by
  intro e he
  simp only [twoSizes, List.mem_cons, List.not_mem_nil, or_false] at he
  rcases he with rfl | rfl
  · exact proper_sample (by decide +kernel)
  · exact proper_sample (by decide +kernel)

/-- The second of two sizes falls into the cell of the first and is not kept: the map is read. -/
theorem featuresAt_by_size_one_cell :
    ∃ fs, (unitMap.editAll (twoSizes ⟨0.5, 0.5, 0.5⟩ ⟨0.25, 0.5, 0.5⟩)).featuresAt .identity 10 = .ok fs ∧
      (fs.entries.toList.map fun f => (f.point, f.descriptor.toList)) = [(⟨0.5, 0.5, 0.5⟩, [1])] := by
  have hpose : (Pose.identity : Pose Float).isValid = true := by decide +kernel
  have hradius : checkRadius (10 : Float32) = .ok () := if_pos (by decide +kernel)
  obtain ⟨frame, hframe, hextracts, _⟩ := featuresAt_by_size create_unitMap
    (proper_twoSizes ⟨0.5, 0.5, 0.5⟩ ⟨0.25, 0.5, 0.5⟩) hpose hradius
  have hsome : (Pose.identity : Pose Float).toMotion? = some ⟨Quaternion.identity.normalize, .zero⟩ :=
    if_pos hpose
  obtain rfl := Option.some.inj (hframe.symm.trans hsome)
  obtain ⟨fs, hok, hentries⟩ := hextracts.answer (by decide +kernel)
  refine ⟨fs, hok, ?_⟩
  have hread := congrArg (List.map fun e : Vec3 Float32 × Nat × List Float32 => (e.1, e.2.2)) hentries
  rw [List.map_map, List.map_map] at hread
  refine hread.trans ?_
  decide +kernel

/-- Two sizes in two cells: both collections are proper and are taken, and the map cannot be read. -/
theorem featuresAt_two_cells :
    create 1 .keepFirst = .ok unitMap ∧
      (∀ e ∈ twoSizes ⟨0.5, 0.5, 0.5⟩ ⟨2.5, 0.5, 0.5⟩, e.Proper) ∧
      (Pose.identity : Pose Float).isValid = true ∧ checkRadius (10 : Float32) = .ok () ∧
      (unitMap.editAll (twoSizes ⟨0.5, 0.5, 0.5⟩ ⟨2.5, 0.5, 0.5⟩)).features.size = 2 ∧
      (unitMap.editAll (twoSizes ⟨0.5, 0.5, 0.5⟩ ⟨2.5, 0.5, 0.5⟩)).featuresAt .identity 10
        = .error (.malformedDescriptor 1 2 1) := by
  refine ⟨create_unitMap, proper_twoSizes _ _, by decide +kernel, if_pos (by decide +kernel),
    by decide +kernel, ?_⟩
  have herror : (match (unitMap.editAll (twoSizes ⟨0.5, 0.5, 0.5⟩ ⟨2.5, 0.5, 0.5⟩)).featuresAt .identity 10 with
      | .error e => some e | .ok _ => none) = some (.malformedDescriptor 1 2 1) := by
    decide +kernel
  split at herror
  · rename_i e he
    rw [he, Option.some.inj herror]
  · cases herror

end VoxelMap

end StereoMapping
