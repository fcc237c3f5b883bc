import Mathlib.Tactic.Group
import StereoMapping.Proofs.Geometry.RigidMotion
import StereoMapping.Proofs.Odometry.Replay

/-!
# `Proofs.Odometry.Drift` — missed runs cause no drift

The published pose is carried on by relative motions: from the camera of the last published pose, which is as
many steps back in the window as there were runs since, to the newest one. In exact arithmetic, and as long as
that camera has not left the window, the estimates of a run cancel out of this motion together with the frame
they are given in. What remains is the true motion, however many runs failed in between.

## Contents
- `located?_rigid`: the pose at which a camera is published, as a product in the group; `exists_located?`: valid poses
  always give one.
- `Anchored`: the counter of steps and the published pose refer to the same run; `anchored`: they always do.
- `success_of_valid`: an accepted estimate with valid poses is never refused.
- `no_drift`: published poses and additions to the map, for every pattern of failures.
- `flicker`: a session with an estimator that fails every other time.
-/

namespace StereoMapping

variable {S : Type}

/-! ## A camera located from an earlier one -/

/-- Once the map was started, a camera is located at the published pose times the motion from the camera of
that pose. -/
theorem KeypointTrack.located?_rigid {t : KeypointTrack S ℝ} {poses : List (Pose ℝ)} {base newest : Pose ℝ}
    {f b n : RigidMotion} (hstarted : t.mapStarted = true) (hpose : t.pose.rigid? = some f)
    (hbase : poses[min t.stepsSincePose (poses.length - 1)]? = some base) (hb : base.rigid? = some b)
    (hnewest : poses.head? = some newest) (hn : newest.rigid? = some n) :
    ∃ pose, t.located? poses = some pose ∧ pose.rigid? = some (f * (b⁻¹ * n)) := by
  obtain ⟨back, hback, hbackRigid⟩ := Pose.rigid?_inverse hb
  obtain ⟨motion, hmotion, hmotionRigid⟩ := Pose.rigid?_compose hbackRigid hn
  obtain ⟨pose, hnext, hnextRigid⟩ := Pose.rigid?_compose hpose hmotionRigid
  refine ⟨pose, ?_, hnextRigid⟩
  have hsince : t.motionSince poses = .ok motion := by
    rw [motionSince_eq hbase hnewest, hback]
    show orInvalid (back.compose? newest) = .ok motion
    rw [hmotion]
    rfl
  have hnextPose : t.nextPose poses = .ok pose := by
    unfold nextPose
    rw [hsince]
    show orInvalid (t.pose.compose? motion) = .ok pose
    rw [hnext]
    rfl
  unfold located?
  rw [if_pos hstarted, hnextPose]
  exact Option.filter_eq_some_iff.mpr ⟨rfl, Pose.isValid_of_rigid? hnextRigid⟩

/-- **Valid poses always locate the newest camera**: what is made of them is valid too. -/
theorem KeypointTrack.exists_located? {t : KeypointTrack S ℝ} {newest : Pose ℝ} {rest : List (Pose ℝ)}
    (hpose : t.mapStarted = true → t.pose.isValid = true) (hvalid : ∀ pose ∈ newest :: rest, pose.isValid = true) :
    ∃ pose, t.located? (newest :: rest) = some pose := by
  by_cases hstarted : t.mapStarted = true
  · have hback : min t.stepsSincePose ((newest :: rest).length - 1) < (newest :: rest).length := by
      rw [List.length_cons]
      omega
    obtain ⟨f, hf⟩ := Pose.exists_rigid?_of_isValid (hpose hstarted)
    obtain ⟨b, hb⟩ := Pose.exists_rigid?_of_isValid (hvalid _ (List.getElem_mem hback))
    obtain ⟨n, hn⟩ := Pose.exists_rigid?_of_isValid (hvalid newest List.mem_cons_self)
    obtain ⟨pose, hlocated, _⟩ := KeypointTrack.located?_rigid hstarted hf (List.getElem?_eq_getElem hback) hb rfl hn
    exact ⟨pose, hlocated⟩
  · refine ⟨newest, ?_⟩
    unfold KeypointTrack.located?
    rw [if_neg hstarted, if_pos (List.all_eq_true.mpr hvalid)]
    rfl

/-- Before that, a window of valid poses is located where its newest camera is. -/
theorem KeypointTrack.located?_first {t : KeypointTrack S ℝ} {poses : List (Pose ℝ)} {pose : Pose ℝ}
    (hstarted : ¬ t.mapStarted = true) (h : t.located? poses = some pose) : poses.head? = some pose := by
  unfold located? at h
  rw [if_neg hstarted] at h
  split at h
  · exact h
  · cases h

namespace Session

variable [Scalar S] [Precision S ℝ]

/-- **An accepted estimate with valid poses is never refused.** -/
theorem success_of_valid {s : Session S ℝ} {t : Nat} {poses : List (Pose ℝ)}
    (h : s.accepted? t = some poses) (hvalid : ∀ pose ∈ poses, pose.isValid = true) :
    s.success t = true := by
  have hfull : s.size ≤ t := by
    by_contra hwait
    rw [accepted?_of_waiting (Nat.lt_of_not_le hwait)] at h
    cases h
  -- the window is full, so at least one pair was seen before
  obtain ⟨j, rfl⟩ : ∃ j, t = j + 1 :=
    Nat.exists_eq_succ_of_ne_zero (Nat.ne_of_gt (Nat.lt_of_lt_of_le s.size_pos hfull))
  have hlength : poses.length = s.size := (estimate_of_accepted h).2
  have hpos := s.size_pos
  obtain ⟨newest, rest, rfl⟩ := List.exists_cons_of_length_pos (hlength ▸ hpos)
  -- a pose that was published is valid, and stays so while nothing is published
  have hpublished : (s.pending (j + 1)).mapStarted = true → (s.pending (j + 1)).pose.isValid = true := by
    intro hstarted
    have hsome : s.successes j ≠ [] := by
      rw [← mapStarted_iff, ← (s.quiet_pending j).mapStarted_eq]
      exact hstarted
    rw [(s.quiet_pending j).pose_eq]
    exact (standing_of_successes hsome).pose_valid
  obtain ⟨pose, hpose⟩ := KeypointTrack.exists_located? hpublished hvalid
  cases s.outcome j with
  | unlocated accepted result quiet =>
    rw [h] at accepted
    cases accepted
  | refused others accepted located result quiet =>
    rw [h] at accepted
    obtain rfl := Option.some.inj accepted
    rw [hpose] at located
    cases located
  | located others other accepted located result published =>
    exact congrArg KeypointTrack.success published.track_eq

/-! ## A session in a moving frame -/

/-- The estimates of a session, read as rigid motions: a run that locates its pair sees each camera of its
window at the true motion of that camera, in a frame of its own. -/
def Sees (s : Session S ℝ) (frame motion : Nat → RigidMotion) : Prop :=
  ∀ t, s.success t = true → ∀ steps < s.size,
    (s.estimate t).poses[steps]?.bind Pose.rigid? = some (frame t * motion (t - steps))

/-- Two runs that located their pairs, with none between them. -/
def Consecutive (s : Session S ℝ) (previous next : Nat) : Prop :=
  previous < next ∧ s.success previous = true ∧ s.success next = true ∧
    ∀ j, previous < j → j < next → s.success j = false

/-- The first run that located its pair. -/
def FirstSuccess (s : Session S ℝ) (first : Nat) : Prop :=
  s.success first = true ∧ ∀ j < first, s.success j = false

theorem Sees.exists_pose {s : Session S ℝ} {frame motion : Nat → RigidMotion} (h : s.Sees frame motion)
    {t steps : Nat} {poses : List (Pose ℝ)} (hsuccess : s.success t = true)
    (haccepted : s.accepted? t = some poses) (hsteps : steps < s.size) :
    ∃ pose, poses[steps]? = some pose ∧ pose.rigid? = some (frame t * motion (t - steps)) := by
  have hread := h t hsuccess steps hsteps
  rw [(estimate_of_accepted haccepted).1] at hread
  exact Option.bind_eq_some_iff.mp hread

/-- After some runs, the last of the successes is known to the counter of steps, and its pose is published. -/
structure Anchored (s : Session S ℝ) (frame : RigidMotion) (motion : Nat → RigidMotion) (t last : Nat) :
    Prop where
  success : s.success last = true
  last_le : last ≤ t
  failures : ∀ j, last < j → j ≤ t → s.success j = false
  steps_eq : (s.track t).stepsSincePose = t - last
  pose_eq : (s.track t).pose.rigid? = some (frame * motion last)

/-- The first success publishes the pose of the newest camera. -/
theorem anchored_first {s : Session S ℝ} {frame motion : Nat → RigidMotion} {first : Nat}
    (hsees : s.Sees frame motion) (hfirst : s.FirstSuccess first) :
    s.Anchored (frame first) motion first first := by
  obtain ⟨hsuccess, hnone⟩ := hfirst
  obtain ⟨t, rfl⟩ : ∃ t, first = t + 1 :=
    Nat.exists_eq_succ_of_ne_zero (Nat.ne_of_gt (Nat.lt_of_lt_of_le s.size_pos (size_le_of_success hsuccess)))
  obtain ⟨poses, pose, haccepted, hlocated, _, hpublished⟩ := located_of_success hsuccess
  -- a started map would have had an earlier success
  have hstarted : ¬ (s.pending (t + 1)).mapStarted = true := by
    rw [(s.quiet_pending t).mapStarted_eq, mapStarted_iff]
    intro hsome
    obtain ⟨j, later, hcons⟩ := List.exists_cons_of_ne_nil hsome
    obtain ⟨_, hle, hj⟩ := mem_successes.mp (hcons ▸ List.mem_cons_self : j ∈ s.successes t)
    rw [hnone j (Nat.lt_succ_of_le hle)] at hj
    cases hj
  obtain ⟨newest, hnewest, hrigid⟩ := hsees.exists_pose hsuccess haccepted s.size_pos
  have hpose : newest = pose := by
    have hhead := KeypointTrack.located?_first hstarted hlocated
    rw [List.head?_eq_getElem?, hnewest] at hhead
    exact Option.some.inj hhead
  refine ⟨hsuccess, Nat.le_refl _, ?_, ?_, ?_⟩
  · intro j hlt hle
    exact absurd hlt (Nat.not_lt_of_le hle)
  · rw [Nat.sub_self]
    exact congrArg KeypointTrack.stepsSincePose hpublished.track_eq
  · have hpublishedPose : (s.track (t + 1)).pose = pose := congrArg KeypointTrack.pose hpublished.track_eq
    rw [hpublishedPose, ← hpose]
    exact hrigid

/-- A failure moves the counter on. -/
theorem Anchored.failure {s : Session S ℝ} {frame : RigidMotion} {motion : Nat → RigidMotion} {t last : Nat}
    (h : s.Anchored frame motion t last) (hfailure : s.success (t + 1) = false) :
    s.Anchored frame motion (t + 1) last := by
  have hquiet := quiet_of_failure hfailure
  refine ⟨h.success, Nat.le_succ_of_le h.last_le, ?_, ?_, ?_⟩
  · intro j hlt hle
    rcases Nat.lt_or_eq_of_le hle with hold | rfl
    · exact h.failures j hlt (Nat.le_of_lt_succ hold)
    · exact hfailure
  · rw [hquiet.steps_eq, h.steps_eq, Nat.succ_sub h.last_le]
  · rw [hquiet.pose_eq]
    exact h.pose_eq

/-- **A success is chained to the last one through the window**: the camera of the last pose is as many steps
back as the counter says, and the frame of the estimate cancels out. -/
theorem Anchored.succeed {s : Session S ℝ} {frame motion : Nat → RigidMotion} {origin : RigidMotion}
    {t last : Nat} (h : s.Anchored origin motion t last) (hsees : s.Sees frame motion)
    (hsuccess : s.success (t + 1) = true) (hgap : t + 1 - last < s.size) :
    s.Anchored origin motion (t + 1) (t + 1) := by
  obtain ⟨poses, pose, haccepted, hlocated, _, hpublished⟩ := located_of_success hsuccess
  have hquiet := s.quiet_pending t
  have hlength : poses.length = s.size := (estimate_of_accepted haccepted).2
  have hle := h.last_le
  have hstarted : (s.pending (t + 1)).mapStarted = true := by
    rw [hquiet.mapStarted_eq, mapStarted_iff]
    have hpos : 0 < last := Nat.lt_of_lt_of_le s.size_pos (size_le_of_success h.success)
    exact List.ne_nil_of_mem (mem_successes.mpr ⟨hpos, hle, h.success⟩)
  -- the camera of the published pose is still in the window, at the place of the counter
  have hback : min (s.pending (t + 1)).stepsSincePose (poses.length - 1) = t + 1 - last := by
    rw [hquiet.steps_eq, h.steps_eq, hlength]
    omega
  obtain ⟨base, hbase, hbaseRigid⟩ := hsees.exists_pose hsuccess haccepted hgap
  obtain ⟨newest, hnewest, hnewestRigid⟩ := hsees.exists_pose hsuccess haccepted s.size_pos
  have hrun : t + 1 - (t + 1 - last) = last := by omega
  rw [hrun] at hbaseRigid
  rw [Nat.sub_zero] at hnewestRigid
  rw [← List.head?_eq_getElem?] at hnewest
  rw [← hback] at hbase
  have hold : (s.pending (t + 1)).pose.rigid? = some (origin * motion last) := by
    rw [hquiet.pose_eq]
    exact h.pose_eq
  obtain ⟨next, hnext, hnextRigid⟩ := KeypointTrack.located?_rigid hstarted hold hbase hbaseRigid hnewest
    hnewestRigid
  obtain rfl : next = pose := Option.some.inj (hnext.symm.trans hlocated)
  -- the last motion and the frame of this estimate are undone
  have hcancel : origin * motion last * ((frame (t + 1) * motion last)⁻¹ * (frame (t + 1) * motion (t + 1)))
      = origin * motion (t + 1) := by group
  refine ⟨hsuccess, Nat.le_refl _, ?_, ?_, ?_⟩
  · intro j hlt hle
    exact absurd hlt (Nat.not_lt_of_le hle)
  · rw [Nat.sub_self]
    exact congrArg KeypointTrack.stepsSincePose hpublished.track_eq
  · have hpublishedPose : (s.track (t + 1)).pose = next := congrArg KeypointTrack.pose hpublished.track_eq
    rw [hpublishedPose, hnextRigid, hcancel]

/-- **From the first success on a session is anchored** in the frame of that run. -/
theorem anchored {s : Session S ℝ} {frame motion : Nat → RigidMotion} {first : Nat}
    (hsees : s.Sees frame motion) (hfirst : s.FirstSuccess first)
    (hgaps : ∀ previous next, s.Consecutive previous next → next - previous < s.size) {t : Nat}
    (ht : first ≤ t) : ∃ last, s.Anchored (frame first) motion t last := by
  induction t, ht using Nat.le_induction with
  | base => exact ⟨first, anchored_first hsees hfirst⟩
  | succ t _ ih =>
    obtain ⟨last, hlast⟩ := ih
    cases hsuccess : s.success (t + 1) with
    | false => exact ⟨last, hlast.failure hsuccess⟩
    | true =>
      have hconsecutive : s.Consecutive last (t + 1) :=
        ⟨Nat.lt_succ_of_le hlast.last_le, hlast.success, hsuccess,
          fun j hlt hj => hlast.failures j hlt (Nat.le_of_lt_succ hj)⟩
      exact ⟨t + 1, hlast.succeed hsees hsuccess (hgaps last (t + 1) hconsecutive)⟩

/-- The clouds of the first window are added where their cameras truly were. -/
theorem Sees.rigid?_windowOf {s : Session S ℝ} {frame motion : Nat → RigidMotion} (h : s.Sees frame motion)
    {t : Nat} (hsuccess : s.success t = true) :
    ∀ entry ∈ s.windowOf t, entry.2.rigid? = some (frame t * motion entry.1) := by
  obtain ⟨j, rfl⟩ : ∃ j, t = j + 1 :=
    Nat.exists_eq_succ_of_ne_zero (Nat.ne_of_gt (Nat.lt_of_lt_of_le s.size_pos (size_le_of_success hsuccess)))
  obtain ⟨poses, _, haccepted, _⟩ := located_of_success hsuccess
  obtain ⟨hposes, hlength⟩ := estimate_of_accepted haccepted
  intro entry hentry
  unfold windowOf at hentry
  obtain ⟨⟨pose, steps⟩, hmem, rfl⟩ := List.mem_map.mp hentry
  rw [List.mem_reverse, List.mem_zipIdx_iff_getElem?, hposes] at hmem
  have hsteps : steps < s.size := hlength ▸ (List.getElem?_eq_some_iff.mp hmem).1
  obtain ⟨seen, hseen, hrigid⟩ := h.exists_pose hsuccess haccepted hsteps
  obtain rfl : seen = pose := Option.some.inj (hseen.symm.trans hmem)
  exact hrigid

theorem FirstSuccess.eq_of_cons {s : Session S ℝ} {first t j : Nat} {later : List Nat}
    (h : s.FirstSuccess first) (hcons : s.successes t = j :: later) : j = first := by
  have hj : j ∈ s.successes t := hcons ▸ List.mem_cons_self
  obtain ⟨_, hle, hsuccess⟩ := mem_successes.mp hj
  have hge : first ≤ j := by
    by_contra hlt
    rw [h.2 j (Nat.lt_of_not_le hlt)] at hsuccess
    cases hsuccess
  have hpos : 0 < first := Nat.lt_of_lt_of_le s.size_pos (size_le_of_success h.1)
  have hmem : first ∈ s.successes t := mem_successes.mpr ⟨hpos, Nat.le_trans hge hle, h.1⟩
  exact Nat.le_antisymm (first_le hcons hmem) hge

/-- Every success publishes the true motion of its camera, in the frame of the first success. -/
theorem pose_of_success {s : Session S ℝ} {frame motion : Nat → RigidMotion} {first : Nat}
    (hsees : s.Sees frame motion) (hfirst : s.FirstSuccess first)
    (hgaps : ∀ previous next, s.Consecutive previous next → next - previous < s.size) {t : Nat}
    (hsuccess : s.success t = true) : (s.track t).pose.rigid? = some (frame first * motion t) := by
  have hle : first ≤ t := by
    by_contra hlt
    rw [hfirst.2 t (Nat.lt_of_not_le hlt)] at hsuccess
    cases hsuccess
  obtain ⟨last, hlast⟩ := anchored hsees hfirst hgaps hle
  -- the run itself is the last success
  have heq : last = t := by
    rcases Nat.lt_or_eq_of_le hlast.last_le with hlt | heq
    · rw [hlast.failures t hlt (Nat.le_refl t)] at hsuccess
      cases hsuccess
    · exact heq
  rw [heq] at hlast
  exact hlast.pose_eq

/-- **Missed runs cause no drift.** Let each run that locates its pair be given the true motions of the cameras
of its window, in a frame of its own, and let each success come fewer runs after the one before than the window
has cameras. Then every success publishes the true motion of its camera in the frame of the first one, and
every cloud in the map was added at the true motion of the run that it is from, in the same frame. A run with
an accepted estimate is such a success, as soon as its poses are motions at all. -/
theorem no_drift {s : Session S ℝ} {frame motion : Nat → RigidMotion} {first : Nat}
    (hsees : s.Sees frame motion) (hfirst : s.FirstSuccess first)
    (hgaps : ∀ previous next, s.Consecutive previous next → next - previous < s.size) :
    (∀ t, s.success t = true → (s.track t).pose.rigid? = some (frame first * motion t)) ∧
    (∀ t, (s.track 0).map.addClouds (s.clouds (s.insertions t)) = .ok (s.track t).map ∧
      ∀ entry ∈ s.insertions t, entry.2.rigid? = some (frame first * motion entry.1)) ∧
    ∀ t poses, s.accepted? t = some poses → (∀ pose ∈ poses, pose.isValid = true) → s.success t = true := by
  refine ⟨?_, ?_, ?_⟩
  · intro t hsuccess
    exact pose_of_success hsees hfirst hgaps hsuccess
  · intro t
    refine ⟨s.replay t, ?_⟩
    intro entry hentry
    unfold insertions at hentry
    split at hentry
    · exact absurd hentry List.not_mem_nil
    · rename_i j later hcons
      rcases List.mem_append.mp hentry with hwindow | hlater
      · obtain rfl := hfirst.eq_of_cons hcons
        exact hsees.rigid?_windowOf hfirst.1 entry hwindow
      · obtain ⟨k, hk, rfl⟩ := List.mem_map.mp hlater
        have hmem : k ∈ s.successes t := hcons ▸ List.mem_cons_of_mem _ hk
        exact pose_of_success hsees hfirst hgaps (mem_successes.mp hmem).2.2
  · intro t poses haccepted hvalid
    exact success_of_valid haccepted hvalid

/-! ### A session that misses every other run -/

/-- The translation along the first axis. -/
noncomputable def shift (x : ℝ) : RigidMotion := Motion.rigid ⟨.identity, ⟨x, 0, 0⟩⟩ Quaternion.normSquared_identity

theorem shift_mul (x y : ℝ) : shift x * shift y = shift (x + y) := by
  apply RigidMotion.ext
  intro p
  show Motion.apply ⟨.identity, ⟨x, 0, 0⟩⟩ (Motion.apply ⟨.identity, ⟨y, 0, 0⟩⟩ p)
    = Motion.apply ⟨.identity, ⟨x + y, 0, 0⟩⟩ p
  simp only [Motion.apply_eq, Quaternion.rotate_identity, Vec3.add_def]
  ext <;> ring

theorem rigid?_ofTranslation (x : ℝ) : (Pose.ofTranslation x 0 0).rigid? = some (shift x) :=
  Pose.rigid?_ofMotion (m := ⟨.identity, ⟨x, 0, 0⟩⟩) Quaternion.normSquared_identity

/-- Three cameras moving along an axis, the oldest one at the origin. -/
noncomputable def march : List (Pose ℝ) := [2, 1, 0].map fun place : Nat => .ofTranslation place 0 0

/-- An estimator that sees these cameras, and fails every other time. -/
noncomputable def flickering (success : Bool) : ComponentOf ℝ ℝ .transformEstimation where
  State := Bool
  state := success
  attach _ state := state
  configure state := (state, .ok ())
  load _ state := state
  process state := !state
  output state := ⟨march, state, 0⟩

noncomputable def flickeringSettings : KeypointSettings ℝ ℝ where
  searchRadius := 1
  resolution := 1
  windowSize := 3
  baseline := 1
  fusionPolicy := .keepFirst
  pixelMatching := .exact
  poseCheck := .anyPositiveComponent

theorem validate_flickeringSettings : flickeringSettings.validate = .ok () := by
  have hresolution : checkResolution flickeringSettings.resolution = .ok () := by
    unfold checkResolution
    rw [if_pos (by simp [flickeringSettings])]
    rfl
  have hradius : checkRadius flickeringSettings.searchRadius = .ok () := by
    unfold checkRadius
    rw [if_pos (by simp [flickeringSettings])]
    rfl
  have hbaseline : (Scalar.lt 0 flickeringSettings.baseline && Scalar.isFinite flickeringSettings.baseline)
      = true := by simp [flickeringSettings]
  unfold KeypointSettings.validate
  rw [hresolution, hradius, hbaseline]
  rfl

/-- A session with empty images, and with that estimator. -/
noncomputable def flicker : Session ℝ ℝ where
  start := {
    settings := flickeringSettings
    modules := {
      leftFilter := none
      rightFilter := none
      reconstructor := .constant .empty
      extractor := .constant .empty
      descriptor := none
      matcher := .constant #[]
      triangulator := .constant .empty
      estimator := flickering false }
    left := .empty
    right := .empty
    track := .initial flickeringSettings }
  fresh := ⟨validate_flickeringSettings, KeypointTrack.create_eq validate_flickeringSettings (by decide)⟩
  pairs := fun _ => (.empty, .empty)

/-- The estimator succeeds in the third run, the fifth, and so on. -/
theorem estimator_flicker (t : Nat) :
    (flicker.chain t).modules.estimator = flickering (decide (3 ≤ t ∧ t % 2 = 1)) := by
  induction t with
  | zero => rfl
  | succ t ih =>
    have hstep := (flicker.inStep t).step.estimating
    unfold Estimating at hstep
    rw [hstep, ih]
    by_cases hfull : flicker.size ≤ t + 1
    · have hthree : 3 ≤ t + 1 := hfull
      have hturn : (!decide (3 ≤ t ∧ t % 2 = 1)) = decide (3 ≤ t + 1 ∧ (t + 1) % 2 = 1) := by
        rw [← decide_not, decide_eq_decide]
        omega
      rw [if_pos hfull, ← hturn]
      rfl
    · have hthree : ¬ 3 ≤ t + 1 := hfull
      rw [if_neg hfull]
      congr 1
      rw [decide_eq_decide]
      omega

theorem estimate_flicker (t : Nat) :
    flicker.estimate t = ⟨march, decide (3 ≤ t ∧ t % 2 = 1), 0⟩ := by
  unfold estimate
  rw [estimator_flicker]
  rfl

theorem accepted?_flicker (t : Nat) :
    flicker.accepted? t = if 3 ≤ t ∧ t % 2 = 1 then some march else none := by
  have hcheck : flickeringSettings.poseCheck.accepts (Pose.ofTranslation (2 : Nat) 0 0 : Pose ℝ) = true := by
    show Pose.hasPositiveComponent _ = true
    simp [Pose.hasPositiveComponent, Pose.ofTranslation, Quaternion.identity]
  by_cases hfull : 3 ≤ t
  · rw [accepted?_of_full hfull, estimate_flicker]
    by_cases hodd : t % 2 = 1
    · rw [if_pos ⟨hfull, hodd⟩, KeypointTrack.acceptedPoses?_eq_some_iff]
      exact ⟨⟨decide_eq_true ⟨hfull, hodd⟩, rfl⟩, rfl, _, rfl, hcheck⟩
    · rw [if_neg fun h => hodd h.2, Option.eq_none_iff_forall_ne_some]
      intro poses haccepted
      obtain ⟨⟨hsuccess, _⟩, _⟩ := KeypointTrack.acceptedPoses?_eq_some_iff.mp haccepted
      exact hodd (of_decide_eq_true hsuccess).2
  · rw [accepted?_of_waiting (Nat.lt_of_not_le hfull), if_neg fun h => hfull h.1]

theorem valid_march : ∀ pose ∈ march, pose.isValid = true := by
  intro pose hpose
  obtain ⟨place, _, rfl⟩ := List.mem_map.mp hpose
  exact Pose.isValid_of_rigid? (rigid?_ofTranslation place)

theorem success_flicker (t : Nat) : flicker.success t = true ↔ 3 ≤ t ∧ t % 2 = 1 := by
  have haccepted := accepted?_flicker t
  constructor
  · intro hsuccess
    obtain ⟨j, rfl⟩ : ∃ j, t = j + 1 := Nat.exists_eq_succ_of_ne_zero
      (Nat.ne_of_gt (Nat.lt_of_lt_of_le flicker.size_pos (size_le_of_success hsuccess)))
    obtain ⟨poses, _, hsome, _⟩ := located_of_success hsuccess
    by_contra hnot
    rw [haccepted, if_neg hnot] at hsome
    cases hsome
  · intro hodd
    rw [if_pos hodd] at haccepted
    exact success_of_valid haccepted valid_march

theorem march_read {t steps : Nat} (ht : 3 ≤ t) (hsteps : steps < 3) :
    march[steps]?.bind Pose.rigid? = some (shift (2 - t) * shift ↑(t - steps)) := by
  have hplace : (2 - (t : ℝ)) + ↑(t - steps) = ↑(2 - steps) := by
    rw [Nat.cast_sub (by omega), Nat.cast_sub (by omega)]
    push_cast
    ring
  have hpose : march[steps]? = some (.ofTranslation (2 - steps : Nat) 0 0) := by
    rcases steps with _ | _ | _ | steps
    · rfl
    · rfl
    · rfl
    · omega
  rw [shift_mul, hplace, hpose]
  exact rigid?_ofTranslation _

theorem sees_flicker : flicker.Sees (fun t => shift (2 - t)) fun t => shift t := by
  intro t hsuccess steps hsteps
  rw [estimate_flicker]
  exact march_read (size_le_of_success hsuccess) hsteps

theorem firstSuccess_flicker : flicker.FirstSuccess 3 := by
  refine ⟨(success_flicker 3).mpr (by decide), ?_⟩
  intro j hj
  rw [Bool.eq_false_iff]
  exact fun hc => absurd ((success_flicker j).mp hc).1 (Nat.not_le_of_lt hj)

theorem gap_flicker {previous next : Nat} (h : flicker.Consecutive previous next) :
    next - previous < flicker.size := by
  obtain ⟨_, hprevious, _, hbetween⟩ := h
  have hagain : flicker.success (previous + 2) = true := by
    rw [success_flicker] at hprevious ⊢
    omega
  have hle : next ≤ previous + 2 := by
    by_contra hlt
    rw [hbetween (previous + 2) (by omega) (by omega)] at hagain
    cases hagain
  show next - previous < 3
  omega

/-- That session has no drift. Its fourth run fails, and its fifth publishes where the camera is. -/
theorem no_drift_flicker : flicker.success 4 = false ∧ flicker.success 5 = true ∧
    (flicker.track 5).pose.rigid? = some (shift (2 - (3 : Nat)) * shift (5 : Nat)) := by
  have hfourth : flicker.success 4 = false := by
    rw [Bool.eq_false_iff]
    exact fun hc => absurd ((success_flicker 4).mp hc).2 (by decide)
  have hfifth : flicker.success 5 = true := (success_flicker 5).mpr (by decide)
  obtain ⟨hpose, _⟩ := no_drift sees_flicker firstSuccess_flicker fun _ _ h => gap_flicker h
  exact ⟨hfourth, hfifth, hpose 5 hfifth⟩

end Session

end StereoMapping
