import StereoMapping.Component.Builtin
import StereoMapping.Proofs.Image.Intensity
import StereoMapping.Proofs.Image.Patch
import StereoMapping.Proofs.Keypoint.Contract

/-!
# `Proofs.Keypoint.Description` — a description keeps the keypoints

Each keypoint is appended once, with the description of its patch or without one, and the descriptions that there are
have one length. Either that length fits a descriptor, so that none of them is refused, or they are all refused. So what
is read from the described keypoints is told by the image and the half size alone, keypoint by keypoint.

A frame whose declared size wraps around may be accepted with bytes that are not whole pixels. If it begins them with
blue, its conversion ends the program, and so does the description. Nothing else does: no patch is read outside.

## Contents
- `Frame.CutPixels`, `conversionBreach?_eq`: the frames that cannot be converted.
- `Patch.components`: what is read of a keypoint.
- `Features.Reads.addPatch`, `Contract.addPatch`: one keypoint; `reads_foldl_addPatch`, `contract_foldl_addPatch`: all.
- `Features.Keeps`, `describe_keeps`: what a description promises; `patch_description_keeps_keypoints`,
  `keypoint_lost_by_cut_pixels`.
-/

namespace StereoMapping

/-! ## Frames without an image -/

/-- The frame has pixels of three bytes that begin with blue, the last of which is not complete. -/
def Frame.CutPixels (f : Frame) : Prop :=
  f.data.size ≠ 0 ∧ f.mode = .bgr ∧ f.depth = .bits8 ∧ f.data.size % 3 ≠ 0

instance (f : Frame) : Decidable f.CutPixels :=
  inferInstanceAs (Decidable (f.data.size ≠ 0 ∧ f.mode = .bgr ∧ f.depth = .bits8 ∧ f.data.size % 3 ≠ 0))

theorem Frame.bits8_of_intensityRule? {f : Frame} {rule : IntensityRule} (hrule : f.intensityRule? = some rule)
    (hmode : f.mode = .bgr) : f.depth = .bits8 := by
  unfold intensityRule? at hrule
  rw [hmode] at hrule
  cases hdepth : f.depth with
  | bits8 => rfl
  | bits16 | float32 =>
    rw [hdepth] at hrule
    cases hrule

/-- Every other reason to have no image is an error that is returned. -/
theorem Frame.grayImage_ne_breach {f : Frame} (hwhole : f.mode = .bgr → f.depth = .bits8 → f.data.size % 3 = 0)
    (cause : Breach) : f.grayImage ≠ .error (.breach cause) := by
  unfold grayImage
  cases hrule : f.intensityRule? with
  | none => exact fun h => nomatch h
  | some rule =>
    have hcomplete : ¬ (f.mode = .bgr ∧ f.data.size % 3 ≠ 0) :=
      fun h => h.2 (hwhole h.1 (bits8_of_intensityRule? hrule h.1))
    dsimp only
    rw [if_neg hcomplete]
    split <;> exact fun h => nomatch h

/-- **Only cut pixels break a conversion off.** -/
theorem Frame.conversionBreach?_eq (f : Frame) :
    f.conversionBreach? = if f.CutPixels then some .indexOutOfRange else none := by
  unfold conversionBreach?
  by_cases hempty : f.data.size = 0
  · rw [if_pos (by simpa [isEmpty] using hempty), if_neg fun h => h.1 hempty]
  rw [if_neg (by simpa [isEmpty] using hempty)]
  by_cases hcut : f.CutPixels
  · obtain ⟨_, hmode, hdepth, hpixels⟩ := hcut
    rw [if_pos ⟨hempty, hmode, hdepth, hpixels⟩, grayImage_partial hmode hdepth hpixels]
  · have hwhole : f.mode = .bgr → f.depth = .bits8 → f.data.size % 3 = 0 :=
      fun hmode hdepth => Decidable.not_not.mp fun hpixels => hcut ⟨hempty, hmode, hdepth, hpixels⟩
    rw [if_neg hcut]
    split
    · rename_i cause hbreach
      exact absurd hbreach (grayImage_ne_breach hwhole cause)
    · rfl

namespace Patch

variable {S : Type} [Scalar S]

/-- Pixels of a patch. -/
def area (halfSize : Nat) : Nat := (2 * halfSize + 1) * (2 * halfSize + 1)

/-- Components that are read of a keypoint: the description of the patch around it, if it fits a descriptor. -/
def components (image : Grid UInt8) (halfSize : Nat) (p : Vec2 S) : List S :=
  if area halfSize ≤ descriptorCapacity then (describe? image halfSize p).getD [] else []

theorem length_components (image : Grid UInt8) (halfSize : Nat) (p : Vec2 S) :
    components image halfSize p = [] ∨ (components image halfSize p).length = area halfSize := by
  unfold components
  split
  · cases hdescribe : describe? image halfSize p with
    | none => exact .inl rfl
    | some values => exact .inr (length_of_describe? hdescribe)
  · exact .inl rfl

/-- What is read of some keypoints. -/
def entries (image : Grid UInt8) (halfSize : Nat) (points : List (Vec2 S)) : List (Vec2 S × List S) :=
  points.map fun p => (p, components image halfSize p)

/-- A description of the length of all patches fits those that there are. -/
theorem fits_entries {image : Grid UInt8} {halfSize : Nat} {points : List (Vec2 S)} {values : List S}
    (hlength : values.length = area halfSize) :
    values = [] ∨ firstLength (entries image halfSize points) = 0 ∨
      values.length = firstLength (entries image halfSize points) := by
  by_cases hzero : firstLength (entries image halfSize points) = 0
  · exact .inr (.inl hzero)
  · obtain ⟨e, he, hne, hsize⟩ := exists_of_firstLength hzero
    obtain ⟨p, _, rfl⟩ := List.mem_map.mp he
    refine .inr (.inr ?_)
    rw [← hsize, hlength]
    exact ((length_components image halfSize p).resolve_left hne).symm

end Patch

namespace Features

open Patch

section Reads

variable {S : Type} [Scalar S] {halfSize : Nat} {image : Grid UInt8}

/-- **One keypoint** is appended with what is read of it. -/
theorem Reads.addPatch {fs : Features (Vec2 S) S} {points : List (Vec2 S)}
    (h : fs.Reads (Patch.entries image halfSize points)) (p : Vec2 S) :
    (fs.addPatch halfSize image p).Reads (Patch.entries image halfSize (points ++ [p])) := by
  have hconcat : Patch.entries image halfSize (points ++ [p])
      = Patch.entries image halfSize points ++ [(p, components image halfSize p)] := List.map_append
  rw [hconcat]
  unfold Features.addPatch components
  cases hdescribe : describe? image halfSize p with
  | none =>
    rw [Option.getD_none, ite_self]
    exact h.addPoint p
  | some values =>
    have hlength : values.length = area halfSize := length_of_describe? hdescribe
    -- patches have one size, so the collection refuses a patch only if it is too large for all
    by_cases hfits : area halfSize ≤ descriptorCapacity
    · obtain ⟨gs, hadd, hgs⟩ := h.addDescribed (p, values) (hlength ▸ hfits) (fits_entries hlength)
      rw [if_pos hfits]
      dsimp only at hadd ⊢
      rw [hadd]
      exact hgs
    · have hrefuses : fs.Refuses values := .inl (hlength ▸ Nat.not_le.mp hfits)
      rw [if_neg hfits]
      dsimp only
      rw [addDescribed_of_refuses hrefuses]
      exact h.addPoint p

theorem reads_foldl_addPatch {fs : Features (Vec2 S) S} {done : List (Vec2 S)}
    (h : fs.Reads (Patch.entries image halfSize done)) (points : List (Vec2 S)) :
    (points.foldl (addPatch halfSize image) fs).Reads (Patch.entries image halfSize (done ++ points)) := by
  induction points generalizing fs done with
  | nil =>
    rw [List.append_nil]
    exact h
  | cons p rest ih =>
    rw [List.append_cons]
    exact ih (h.addPatch p)

end Reads

/-! ## What a description promises -/

section Promises

variable {halfSize : Nat}

theorem Contract.addPatch {fs : Features (Vec2 Float32) Float32} (h : fs.Contract) (image : Grid UInt8)
    (p : Vec2 Float32) : (fs.addPatch halfSize image p).Contract := by
  unfold Features.addPatch
  cases describe? image halfSize p with
  | none => exact h.addPoint p
  | some values =>
    dsimp only
    cases hadd : fs.addDescribed p values with
    | ok gs => exact h.addDescribed hadd
    | error e => exact h.addPoint p

theorem contract_foldl_addPatch {fs : Features (Vec2 Float32) Float32} (h : fs.Contract) (image : Grid UInt8)
    (points : List (Vec2 Float32)) : (points.foldl (Features.addPatch halfSize image) fs).Contract := by
  induction points generalizing fs with
  | nil => exact h
  | cons p rest ih => exact ih (h.addPatch image p)

/-- **Some keypoints are kept**, in order: their descriptors are in order and have the length of a patch unless they are
empty, as they all are without an image or for patches that do not fit a descriptor; each of them has the description
of the patch around its point, if there is one. -/
structure Keeps (halfSize : Nat) (image? : Option (Grid UInt8)) (points : List (Vec2 Float32))
    (fs : Features (Vec2 Float32) Float32) : Prop where
  points_eq : fs.points = points
  checked : fs.checkDescriptors = .ok ()
  length_eq : ∀ f ∈ fs.entries.toList, f.descriptor.length = 0 ∨ f.descriptor.length = area halfSize
  undescribed : image? = none ∨ descriptorCapacity < area halfSize →
    ∀ f ∈ fs.entries.toList, f.descriptor.length = 0
  entries_eq : ∀ image, image? = some image →
    (fs.entries.toList.map fun f => (f.point, f.descriptor.toList)) = Patch.entries image halfSize points

theorem keeps_of_image {image : Grid UInt8} {points : List (Vec2 Float32)} {fs : Features (Vec2 Float32) Float32}
    (hreads : fs.Reads (Patch.entries image halfSize points)) (hcontract : fs.Contract) :
    fs.Keeps halfSize (some image) points := by
  have hcomponents : ∀ f ∈ fs.entries.toList, f.descriptor.toList = components image halfSize f.point := by
    intro f hf
    have hmem := hreads.entries_eq ▸
      List.mem_map_of_mem (f := fun f : Feature (Vec2 Float32) Float32 => (f.point, f.descriptor.toList)) hf
    obtain ⟨p, _, hp⟩ := List.mem_map.mp hmem
    obtain ⟨rfl, hcomponents⟩ := Prod.mk.inj hp
    exact hcomponents.symm
  refine ⟨?_, hcontract.checkDescriptors, ?_, ?_, fun _ h => Option.some.inj h ▸ hreads.entries_eq⟩
  · rw [hreads.points_eq, Patch.entries, List.map_map]
    exact List.map_id points
  · intro f hf
    rw [hreads.length_eq f hf, hcomponents f hf]
    exact (length_components image halfSize f.point).imp_left (congrArg List.length)
  · intro hnone f hf
    have hlarge : ¬ area halfSize ≤ descriptorCapacity :=
      Nat.not_le.mpr (hnone.resolve_left (Option.some_ne_none image))
    rw [hreads.length_eq f hf, hcomponents f hf, components, if_neg hlarge]
    rfl

theorem keeps_ofPoints (points : List (Vec2 Float32)) :
    (ofPoints points : Features (Vec2 Float32) Float32).Keeps halfSize none points := by
  have hlength : ∀ f ∈ (ofPoints points : Features (Vec2 Float32) Float32).entries.toList, f.descriptor.length = 0 :=
    (contract_ofPoints points).size_eq_zero_iff.mp rfl
  exact ⟨points_ofPoints, (contract_ofPoints points).checkDescriptors, fun f hf => .inl (hlength f hf),
    fun _ => hlength, fun _ h => nomatch h⟩

/-- A description starts without keypoints and keeps those that it is given. -/
theorem describe_keeps (settings : PatchSettings) (frame : Frame) (keypoints held : Features (Vec2 Float32) Float32) :
    (describe settings frame keypoints held.clear).Keeps settings.halfSize (intensities frame) keypoints.points := by
  unfold describe
  cases intensities frame with
  | none => exact keeps_ofPoints keypoints.points
  | some image =>
    have hstart : (empty : Features (Vec2 Float32) Float32).Reads (Patch.entries image settings.halfSize []) :=
      reads_empty
    exact keeps_of_image (reads_foldl_addPatch hstart keypoints.points)
      (contract_foldl_addPatch contract_empty image keypoints.points)

/-- **A description of keypoints loses none of them**, whatever the half size and whatever was computed before. It ends
the program exactly for cut pixels, which no accepted frame has unless its declared size wraps around; otherwise all
keypoints are kept. For an accepted frame no pixel outside the image is asked for. -/
theorem patch_description_keeps_keypoints
    (w : Worker PatchSettings (Frame × Features (Vec2 Float32) Float32) (Features (Vec2 Float32) Float32))
    (frame : Frame) (keypoints : Features (Vec2 Float32) Float32) :
    let given := patchDescription.store (frame, keypoints) w
    (frame.CutPixels → patchDescription.attempt given = .error (.breach .indexOutOfRange)) ∧
      (¬ frame.CutPixels → ∃ done, patchDescription.attempt given = .ok done ∧
        done.output.Keeps w.settings.halfSize (intensities frame) keypoints.points) ∧
      (frame.check = .ok () →
        (Frame.neededBytes frame.width frame.height frame.mode frame.depth < 2 ^ 64 → ¬ frame.CutPixels) ∧
        (w.settings.halfSize ≤ largestWord → ∀ image, intensities frame = some image →
          ∀ (p : Vec2 Float32) (row col : Nat), centre? image w.settings.halfSize p = some (row, col) →
            Fits image w.settings.halfSize row col)) := by
  intro given
  have hbreach : patchDescription.breach? given.slots = if frame.CutPixels then some .indexOutOfRange else none :=
    frame.conversionBreach?_eq
  refine ⟨?_, ?_, ?_⟩
  · intro hcut
    rw [if_pos hcut] at hbreach
    unfold Algorithm.attempt
    rw [hbreach]
    rfl
  · intro hwhole
    rw [if_neg hwhole] at hbreach
    refine ⟨patchDescription.process given, ?_, describe_keeps w.settings frame keypoints w.output⟩
    unfold Algorithm.attempt
    rw [hbreach]
    rfl
  · intro hcheck
    refine ⟨fun hneeded hcut => hcut.2.2.2 (Frame.whole_pixels hcut.2.1 hcheck hneeded), ?_⟩
    intro hword image himage p row col hcentre
    obtain ⟨hrows, hcols⟩ := dims_lt_of_intensities himage
    have harea := (Disparity.area_le_of_intensities himage).trans (Frame.check_eq_ok_iff.mp hcheck).1
    exact fits_of_centre? hword hrows hcols harea hcentre

/-- A keypoint with a patch and one at the border are both kept; with cut pixels neither is. -/
theorem patch_description_keeps_keypoints_border :
    let points : List (Vec2 Float32) := [⟨1, 1⟩, ⟨0, 2⟩]
    let small := patchDescription.worker (⟨1⟩ : PatchSettings)
    (∃ frame, Frame.ofBytes 3 3 .grayscale .bits8 #[1, 2, 3, 4, 5, 6, 7, 8, 9] = .ok frame ∧
      (∃ done, patchDescription.attempt (patchDescription.store (frame, ofPoints points) small) = .ok done ∧
        done.output.Keeps 1 (intensities frame) points) ∧
      ∀ image, intensities frame = some image → ∀ (p : Vec2 Float32) (row col : Nat),
        centre? image 1 p = some (row, col) → Fits image 1 row col) ∧
      ∃ frame, Frame.ofBytes 6148914691236517206 1 .bgr .bits8 #[1, 2] = .ok frame ∧
        patchDescription.attempt (patchDescription.store (frame, ofPoints points) small) =
          .error (.breach .indexOutOfRange) := by
  intro points small
  constructor
  · let frame : Frame := ⟨3, 3, .grayscale, .bits8, 0, #[], #[1, 2, 3, 4, 5, 6, 7, 8, 9]⟩
    have hbytes : Frame.ofBytes 3 3 .grayscale .bits8 #[1, 2, 3, 4, 5, 6, 7, 8, 9] = .ok frame :=
      Frame.ofBytes_ok (by decide) (.inr (by decide))
    obtain ⟨_, hkeeps, haccepted⟩ := patch_description_keeps_keypoints small frame (ofPoints points)
    obtain ⟨hwhole, hinside⟩ := haccepted (Frame.check_eq_ok_iff.mpr ⟨by decide, .inr (by decide)⟩)
    obtain ⟨done, hdone, houtput⟩ := hkeeps (hwhole (by decide))
    rw [points_ofPoints] at houtput
    exact ⟨_, hbytes, ⟨done, hdone, houtput⟩, hinside (by decide)⟩
  · refine ⟨_, Frame.ofBytes_ok (by decide) (.inr (by decide)), ?_⟩
    exact (patch_description_keeps_keypoints small _ (ofPoints points)).1 (by decide)

/-- **A keypoint is lost**: two bytes pass for a row of blue-green-red pixels whose size wraps around. -/
theorem keypoint_lost_by_cut_pixels : ∃ frame,
    Frame.ofBytes 6148914691236517206 1 .bgr .bits8 #[1, 2] = .ok frame ∧
      ∀ done, patchDescription.attempt (patchDescription.store (frame, ofPoints [(⟨5, 5⟩ : Vec2 Float32)])
        (patchDescription.worker ⟨3⟩)) ≠ .ok done := by
  refine ⟨_, Frame.ofBytes_ok (by decide) (.inr (by decide)), fun done hdone => ?_⟩
  cases hdone

end Promises

end Features

end StereoMapping
