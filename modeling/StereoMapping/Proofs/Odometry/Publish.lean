import StereoMapping.Odometry.KeypointChain
import StereoMapping.Proofs.Cloud.VoxelMap

/-!
# `Proofs.Odometry.Publish` — nothing is refused once the map has changed

Locating a camera passes several calls that may be refused: additions to the map, at the end the reading of
the part around the camera. What the map was given before a refusal would stay in it. Everything that can be
refused is decided by one pose, `located?`, before the first addition; with that pose at hand the additions
and the reading succeed.

## Contents
- `poseAt_of_lt`, `motionSince_eq`, `nextPose_error`: cameras of the window are found, and no more than an invalid pose comes of them.
- `located?`: the pose at which a camera will be published; `additions`: what then goes into the map.
- `addDenseAll_eq`: a series of additions from held clouds and valid poses is a series of additions to the map.
- `Published`: a track after it was published; `publish_located`, `publish_refused`: there is no third way.
-/

namespace StereoMapping
namespace KeypointTrack

variable {S D : Type} [Scalar D]

omit [Scalar D] in
/-- A camera of the window has a pose. -/
theorem poseAt_of_lt {poses : List (Pose D)} {camera : Nat} (h : camera < poses.length) :
    poseAt poses camera = .ok poses[camera] := by
  unfold poseAt
  rw [List.getElem?_eq_getElem h]
  rfl

omit [Scalar D] in
theorem orInvalid_error {pose : Option (Pose D)} {e : Error} (h : orInvalid pose = .error e) : e = .invalidPose := by
  cases pose with
  | none => exact (Except.error.inj h).symm
  | some _ => cases h

/-- The motion is read off the camera of the last pose, or the oldest one, and the newest one. -/
theorem motionSince_eq {t : KeypointTrack S D} {poses : List (Pose D)} {base newest : Pose D}
    (hbase : poses[min t.stepsSincePose (poses.length - 1)]? = some base) (hnewest : poses.head? = some newest) :
    t.motionSince poses = (orInvalid base.inverse?).bind fun inverse => orInvalid (inverse.compose? newest) := by
  have hcamera : (if t.stepsSincePose < poses.length then t.stepsSincePose else poses.length - 1)
      = min t.stepsSincePose (poses.length - 1) := by
    split <;> omega
  rw [List.head?_eq_getElem?] at hnewest
  unfold motionSince
  simp only [hcamera, poseAt, hbase, hnewest]
  rfl

/-- **No camera is missed on the way to the next pose**, whichever run the last one is of: if there is none, some pose
is invalid. -/
theorem nextPose_error {t : KeypointTrack S D} {poses : List (Pose D)} {e : Error} (hposes : poses ≠ [])
    (h : t.nextPose poses = .error e) : e = .invalidPose := by
  obtain ⟨newest, rest, rfl⟩ := List.exists_cons_of_ne_nil hposes
  obtain ⟨base, hbase⟩ : ∃ base, (newest :: rest)[min t.stepsSincePose ((newest :: rest).length - 1)]? = some base :=
    ⟨_, List.getElem?_eq_getElem (by rw [List.length_cons]; omega)⟩
  unfold nextPose at h
  rw [motionSince_eq hbase rfl] at h
  -- what is left can only fail for want of a valid pose
  cases hinverse : orInvalid base.inverse? with
  | error e' =>
    rw [hinverse] at h
    obtain rfl := Except.error.inj h
    exact orInvalid_error hinverse
  | ok inverse =>
    rw [hinverse] at h
    cases hmotion : orInvalid (inverse.compose? newest) with
    | error e' =>
      simp only [Except.bind, hmotion] at h
      obtain rfl := Except.error.inj h
      exact orInvalid_error hmotion
    | ok motion =>
      simp only [Except.bind, hmotion] at h
      exact orInvalid_error h

/-- The pose of the newest camera, if the poses of its window allow to publish it. A window that starts the
map must be valid as a whole. -/
def located? (t : KeypointTrack S D) (poses : List (Pose D)) : Option (Pose D) :=
  if t.mapStarted then (t.nextPose poses).toOption.filter Pose.isValid
  else if poses.all Pose.isValid then poses.head? else none

/-- What goes into the map with a located camera: steps back, and the pose of the cloud there. -/
def additions (t : KeypointTrack S D) (poses : List (Pose D)) (pose : Pose D) : List (Pose D × Nat) :=
  if t.mapStarted then [(pose, 0)] else poses.zipIdx.reverse

theorem isValid_of_located? {t : KeypointTrack S D} {poses : List (Pose D)} {pose : Pose D}
    (h : t.located? poses = some pose) : pose.isValid = true := by
  unfold located? at h
  split at h
  · exact (Option.filter_eq_some_iff.mp h).2
  · split at h
    · rename_i hall
      exact List.all_eq_true.mp hall pose (List.mem_of_mem_head? h)
    · cases h

theorem valid_additions {t : KeypointTrack S D} {poses : List (Pose D)} {pose : Pose D}
    (h : t.located? poses = some pose) : ∀ entry ∈ t.additions poses pose, entry.1.isValid = true := by
  intro entry hentry
  unfold additions at hentry
  split at hentry
  · rw [List.mem_singleton] at hentry
    exact hentry ▸ isValid_of_located? h
  · rename_i hstart
    unfold located? at h
    rw [if_neg hstart] at h
    split at h
    · rename_i hall
      have hmem : entry.1 ∈ poses := List.fst_mem_of_mem_zipIdx (List.mem_reverse.mp hentry)
      exact List.all_eq_true.mp hall entry.1 hmem
    · cases h

theorem steps_lt_of_mem_additions {t : KeypointTrack S D} {poses : List (Pose D)} {pose : Pose D}
    {entry : Pose D × Nat} (h : t.located? poses = some pose) (hentry : entry ∈ t.additions poses pose) :
    entry.2 < poses.length := by
  unfold additions at hentry
  unfold located? at h
  split at hentry
  · rename_i hstart
    rw [if_pos hstart] at h
    rw [List.mem_singleton] at hentry
    subst hentry
    -- no motion is read off an empty window
    cases poses with
    | nil => cases h
    | cons newest rest => exact Nat.succ_pos _
  · exact List.snd_lt_of_mem_zipIdx (List.mem_reverse.mp hentry)

/-- The newest camera comes last. -/
theorem additions_concat {t : KeypointTrack S D} {poses : List (Pose D)} {pose : Pose D}
    (h : t.located? poses = some pose) : ∃ older, t.additions poses pose = older ++ [(pose, 0)] := by
  unfold additions
  by_cases hstart : t.mapStarted = true
  · rw [if_pos hstart]
    exact ⟨[], rfl⟩
  · rw [if_neg hstart]
    unfold located? at h
    rw [if_neg hstart] at h
    split at h
    · cases poses with
      | nil => cases h
      | cons newest rest =>
        obtain rfl := Option.some.inj h
        exact ⟨(rest.zipIdx 1).reverse, by rw [List.zipIdx_cons, List.reverse_cons]⟩
    · cases h

variable [Scalar S] [Precision S D]

/-- A cloud that is held is added at a valid pose. -/
theorem addDense_ok {t : KeypointTrack S D} {next : VoxelMap S D} {steps added : Nat} {cloud : Cloud S}
    {pose : Pose D} (hcloud : t.history.cloud steps denseClouds = .ok cloud)
    (hadd : t.map.addCloud cloud pose = (next, .ok added)) :
    t.addDense steps pose = ({ t with map := next }, .ok ()) := by
  unfold addDense
  rw [hcloud]
  simp only [hadd]
  rfl

/-- At an invalid pose it is not. -/
theorem addDense_error {t : KeypointTrack S D} {steps : Nat} {cloud : Cloud S} {pose : Pose D}
    (hcloud : t.history.cloud steps denseClouds = .ok cloud) (hpose : pose.isValid = false) :
    t.addDense steps pose = (t, .error .invalidPose) := by
  unfold addDense
  rw [hcloud]
  simp only [VoxelMap.addCloud_error _ _ hpose]
  rfl

/-- **Additions of held clouds at valid poses all succeed.** -/
theorem addDenseAll_eq {t : KeypointTrack S D} {dense : Nat → Cloud S} (entries : List (Pose D × Nat))
    (hclouds : ∀ entry ∈ entries, t.history.cloud entry.2 denseClouds = .ok (dense entry.2))
    (hvalid : ∀ entry ∈ entries, entry.1.isValid = true) :
    ∃ map, t.map.addClouds (entries.map fun entry => (dense entry.2, entry.1)) = .ok map ∧
      t.addDenseAll entries = ({ t with map := map }, .ok ()) := by
  induction entries generalizing t with
  | nil => exact ⟨t.map, rfl, rfl⟩
  | cons entry rest ih =>
    obtain ⟨pose, steps⟩ := entry
    obtain ⟨next, added, hadd, _⟩ := VoxelMap.addCloud_ok t.map (dense steps)
      (hvalid (pose, steps) List.mem_cons_self)
    have hone := addDense_ok (hclouds (pose, steps) List.mem_cons_self) hadd
    obtain ⟨map, hmap, hrest⟩ := ih (t := { t with map := next })
      (fun e he => hclouds e (List.mem_cons_of_mem _ he)) fun e he => hvalid e (List.mem_cons_of_mem _ he)
    refine ⟨map, ?_, ?_⟩
    · have hsplit : (((pose, steps) :: rest).map fun entry => (dense entry.2, entry.1))
          = [(dense steps, pose)] ++ rest.map fun entry => (dense entry.2, entry.1) := rfl
      rw [hsplit, VoxelMap.addClouds_append (VoxelMap.addClouds_single hadd)]
      exact hmap
    · unfold addDenseAll
      rw [hone]
      exact hrest

/-- A series of one addition is that addition. -/
theorem addDense_of_addDenseAll {t u : KeypointTrack S D} {entry : Pose D × Nat}
    (h : t.addDenseAll [entry] = (u, .ok ())) : t.addDense entry.2 entry.1 = (u, .ok ()) := by
  unfold addDenseAll at h
  cases hone : t.addDense entry.2 entry.1 with
  | mk v result =>
    rw [hone] at h
    cases result with
    | error e => cases (Prod.mk.inj h).2
    | ok _ => exact Prod.ext (Prod.mk.inj h).1 rfl

/-- A window of valid poses starts a map. -/
theorem startMap_of_valid {t u : KeypointTrack S D} {poses : List (Pose D)} {pose : Pose D}
    (hvalid : poses.all Pose.isValid = true) (hnewest : poses.head? = some pose)
    (h : t.addDenseAll poses.zipIdx.reverse = (u, .ok ())) :
    t.startMap poses = ({ u with mapStarted := true }, .ok pose) := by
  have hnone : ¬ (poses.any fun p => !p.isValid) = true := by
    rw [List.any_eq_true]
    rintro ⟨p, hp, hinvalid⟩
    rw [List.all_eq_true.mp hvalid p hp] at hinvalid
    exact absurd hinvalid Bool.false_ne_true
  unfold startMap
  rw [if_neg hnone, h]
  cases poses with
  | nil => cases hnewest
  | cons newest rest =>
    obtain rfl := Option.some.inj hnewest
    rfl

/-- A track as it is left by publishing a pose: its additions are in the map, the published cloud is the part
of the map around the pose, and nothing else is changed. -/
structure Published (settings : KeypointSettings S D) (dense : Nat → Cloud S) (poses : List (Pose D))
    (pose : Pose D) (old new : KeypointTrack S D) : Prop where
  map_eq : old.map.addClouds ((old.additions poses pose).map fun entry => (dense entry.2, entry.1))
    = .ok new.map
  lastPose_eq : new.map.lastPose = pose
  scene_eq : new.map.sceneAt pose settings.searchRadius = .ok new.cloud
  track_eq : new = { old with
    map := new.map
    mapStarted := true
    cloud := new.cloud
    pose := pose
    stepsSincePose := 0
    success := true }

/-- With a located pose the map is extended, and that pose is the result. -/
theorem extendMap_located {t : KeypointTrack S D} {dense : Nat → Cloud S} {poses : List (Pose D)}
    {pose : Pose D} (hclouds : ∀ k < poses.length, t.history.cloud k denseClouds = .ok (dense k))
    (h : t.located? poses = some pose) :
    ∃ map, t.map.addClouds ((t.additions poses pose).map fun entry => (dense entry.2, entry.1)) = .ok map ∧
      t.extendMap poses = ({ t with map := map, mapStarted := true }, .ok pose) := by
  have hentries : ∀ entry ∈ t.additions poses pose,
      t.history.cloud entry.2 denseClouds = .ok (dense entry.2) :=
    fun entry hentry => hclouds entry.2 (steps_lt_of_mem_additions h hentry)
  obtain ⟨map, hmap, hadd⟩ := addDenseAll_eq _ hentries (valid_additions h)
  refine ⟨map, hmap, ?_⟩
  unfold extendMap
  unfold located? at h
  unfold additions at hadd
  by_cases hstart : t.mapStarted = true
  · rw [if_pos hstart] at h hadd ⊢
    obtain ⟨hnext, _⟩ := Option.filter_eq_some_iff.mp h
    have hpose : t.nextPose poses = .ok pose := by
      cases hposes : t.nextPose poses with
      | error e =>
        rw [hposes] at hnext
        cases hnext
      | ok next =>
        rw [hposes] at hnext
        exact congrArg Except.ok (Option.some.inj hnext)
    have hone : t.addDense 0 pose = ({ t with map := map }, .ok ()) := addDense_of_addDenseAll hadd
    unfold continueMap
    rw [hpose]
    simp only [hone]
    rw [← hstart]
  · rw [if_neg hstart] at h hadd ⊢
    split at h
    · exact startMap_of_valid ‹_› h hadd
    · cases h

/-- **Publishing a located pose succeeds.** -/
theorem publish_located {t : KeypointTrack S D} {settings : KeypointSettings S D} {dense : Nat → Cloud S}
    {poses : List (Pose D)} {pose : Pose D} (hradius : checkRadius settings.searchRadius = .ok ())
    (hclouds : ∀ k < poses.length, t.history.cloud k denseClouds = .ok (dense k))
    (h : t.located? poses = some pose) :
    ∃ new, t.publish settings poses = (new, .ok ()) ∧ Published settings dense poses pose t new := by
  obtain ⟨map, hmap, hextend⟩ := extendMap_located hclouds h
  obtain ⟨cloud, hscene⟩ := VoxelMap.sceneAt_ok map (isValid_of_located? h) hradius
  obtain ⟨older, hlast⟩ := additions_concat h
  have hlog := hmap
  rw [hlast, List.map_append] at hlog
  refine ⟨{ t with
    map := map, mapStarted := true, cloud := cloud, pose := pose, stepsSincePose := 0, success := true },
    ?_, hmap, ?_, hscene, rfl⟩
  · unfold publish
    rw [hextend]
    simp only [hscene]
  · exact VoxelMap.lastPose_of_addClouds hlog

/-- **What cannot be published is refused before anything changes.** -/
theorem publish_refused {t : KeypointTrack S D} {settings : KeypointSettings S D} {cloud : Cloud S}
    {poses : List (Pose D)} (hposes : poses ≠ []) (hcloud : t.history.cloud 0 denseClouds = .ok cloud)
    (h : t.located? poses = none) : t.publish settings poses = (t, .error .invalidPose) := by
  have hextend : t.extendMap poses = (t, .error .invalidPose) := by
    unfold extendMap
    unfold located? at h
    by_cases hstart : t.mapStarted = true
    · -- either there is no pose at all, or there is an invalid one, refused by the first addition
      rw [if_pos hstart] at h ⊢
      unfold continueMap
      cases hnext : t.nextPose poses with
      | error e =>
        obtain rfl := nextPose_error hposes hnext
        rfl
      | ok pose =>
        rw [hnext] at h
        have hinvalid : pose.isValid = false := by
          cases hv : pose.isValid with
          | false => rfl
          | true => simp [hv, Except.toOption] at h
        simp only [addDense_error hcloud hinvalid]
    · rw [if_neg hstart] at h ⊢
      split at h
      · exact absurd (List.head?_eq_none_iff.mp h) hposes
      · rename_i hall
        have hany : (poses.any fun p => !p.isValid) = true := by
          rw [List.any_eq_not_all_not]
          simpa using hall
        unfold startMap
        rw [if_pos hany]
  unfold publish
  rw [hextend]

end KeypointTrack
end StereoMapping
