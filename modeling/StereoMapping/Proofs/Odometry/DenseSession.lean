import StereoMapping.Odometry.DenseChain
import StereoMapping.Proofs.Cloud.VoxelMap

/-!
# `Proofs.Odometry.DenseSession` — a chain that registers dense clouds, run by run

The first cloud with a valid point starts the map; from then on each cloud is registered onto the part of the map
that was last published. Between the reading of that part and the publication of a pose the run may stop at four
places. `Outcome` has one case for each way it ends, with all that can be said of the track afterwards. The map is
marked as started before its first cloud is added, so a run would leave a started map without a cloud if the
addition could be refused; it cannot, because the identity is a valid pose.

## Contents
- `DenseChain.Fresh`, `exists_fresh`, `DenseSession`: a chain at work; `cloud`, `registration`, `moved?`: what its
  runs gave.
- `DenseTrack.Published`, `publish_valid`, `publish_invalid`: a pose is published as a whole or not at all.
- `Outcome`, `InStep.step`: the five ways a run ends, by the state in which it begins.
- `Accounted`, `dense_runs_accounted`: flag, poses, map and published cloud in terms of the runs.
-/

namespace StereoMapping

variable {S D : Type} [Scalar S] [Scalar D]

/-! ## A chain before its first pair -/

/-- Valid settings pass each of their checks. -/
theorem DenseSettings.checks_of_validate {s : DenseSettings S} (h : s.validate = .ok ()) :
    checkResolution s.resolution = .ok () ∧ checkRadius s.searchRadius = .ok () := by
  unfold validate at h
  cases hresolution : checkResolution s.resolution with
  | error e =>
    rw [hresolution] at h
    cases h
  | ok _ =>
    rw [hresolution] at h
    exact ⟨rfl, h⟩

/-- A chain with valid settings, any components, and the track that is created for it. -/
structure DenseChain.Fresh (c : DenseChain S D) : Prop where
  validated : c.settings.validate = .ok ()
  created : DenseTrack.create c.settings = .ok c.track

/-- What is set up from a registry is fresh. -/
theorem DenseChain.fresh_of_setup {settings : DenseSettings S} {registry rest : Registry S D} {c : DenseChain S D}
    (h : DenseChain.setup settings registry = (rest, .ok c)) : c.Fresh ∧ c.settings = settings := by
  unfold DenseChain.setup Registry.assemble at h
  split at h
  · cases (Prod.mk.inj h).2
  · rename_i hvalid
    split at h
    · cases (Prod.mk.inj h).2
    · split at h
      · cases (Prod.mk.inj h).2
      · cases hcreated : (DenseTrack.create settings : Except Error (DenseTrack S D)) with
        | error e =>
          rw [hcreated] at h
          cases (Prod.mk.inj h).2
        | ok track =>
          rw [hcreated] at h
          obtain rfl := Except.ok.inj (Prod.mk.inj h).2
          exact ⟨⟨hvalid, hcreated⟩, rfl⟩

/-- Any components can be put to work with valid settings. -/
theorem DenseChain.exists_fresh {settings : DenseSettings S} (h : settings.validate = .ok ())
    (modules : DenseModules S D) : ∃ c : DenseChain S D, c.Fresh ∧ c.settings = settings ∧ c.modules = modules := by
  obtain ⟨hresolution, _⟩ := DenseSettings.checks_of_validate h
  have hmap : ∃ map : VoxelMap S D, VoxelMap.create settings.resolution settings.fusionPolicy = .ok map := by
    unfold VoxelMap.create
    rw [hresolution]
    exact ⟨_, rfl⟩
  obtain ⟨map, hcreate⟩ := hmap
  refine ⟨⟨settings, modules, .empty, .empty, ⟨map, false, .identity, .empty, false⟩⟩, ⟨h, ?_⟩, rfl, rfl⟩
  unfold DenseTrack.create
  rw [hcreate]
  rfl

example : (DenseSettings.default : DenseSettings Float32).validate = .ok () := by rfl

/-- The track of valid settings: an empty map, and nothing published. -/
theorem DenseTrack.create_eq {settings : DenseSettings S} {track : DenseTrack S D}
    (h : DenseTrack.create settings = .ok track) :
    VoxelMap.create settings.resolution settings.fusionPolicy = .ok track.map ∧
      track = ⟨track.map, false, .identity, .empty, false⟩ := by
  unfold create at h
  cases hmap : (VoxelMap.create settings.resolution settings.fusionPolicy : Except Error (VoxelMap S D)) with
  | error e =>
    rw [hmap] at h
    cases h
  | ok map =>
    rw [hmap] at h
    obtain rfl := Except.ok.inj h
    exact ⟨rfl, rfl⟩

/-! ## Publishing -/

namespace DenseTrack

variable [Precision S D]

/-- A track as it is left by publishing a pose: the cloud is in the map, and the published cloud is the part of the
map around the pose. -/
structure Published (settings : DenseSettings S) (cloud : Cloud S) (pose : Pose D) (old new : DenseTrack S D) :
    Prop where
  map_eq : ∃ added, old.map.addCloud cloud pose = (new.map, .ok added)
  lastPose_eq : new.map.lastPose = pose
  scene_eq : new.map.sceneAt pose settings.searchRadius = .ok new.cloud
  pose_eq : new.pose = pose
  success_eq : new.success = true
  mapStarted_eq : new.mapStarted = old.mapStarted

/-- **A valid pose is published.** -/
theorem publish_valid (settings : DenseSettings S) (t : DenseTrack S D) (cloud : Cloud S) {pose : Pose D}
    (hradius : checkRadius settings.searchRadius = .ok ()) (hpose : pose.isValid = true) :
    ∃ new, t.publish settings cloud pose = (new, .ok ()) ∧ Published settings cloud pose t new := by
  obtain ⟨map, added, hadd, hlast⟩ := VoxelMap.addCloud_ok t.map cloud hpose
  obtain ⟨scene, hscene⟩ := VoxelMap.sceneAt_ok map hpose hradius
  refine ⟨{ t with map := map, pose := pose, cloud := scene, success := true }, ?_, ⟨added, hadd⟩, hlast, hscene,
    rfl, rfl, rfl⟩
  unfold publish
  simp only [hadd, hscene]

/-- **An invalid pose is refused before anything changes.** -/
theorem publish_invalid {settings : DenseSettings S} (t : DenseTrack S D) (cloud : Cloud S) {pose : Pose D}
    (hpose : pose.isValid = false) : t.publish settings cloud pose = (t, .error .invalidPose) := by
  unfold publish
  rw [VoxelMap.addCloud_error t.map cloud hpose]

/-- What was published before, and whether there was a success, has no part in it. -/
theorem Published.of_same {settings : DenseSettings S} {cloud : Cloud S} {pose : Pose D} {old older new : DenseTrack S D}
    (h : Published settings cloud pose old new) (hmap : older.map = old.map)
    (hstarted : older.mapStarted = old.mapStarted) : Published settings cloud pose older new := by
  refine ⟨?_, h.lastPose_eq, h.scene_eq, h.pose_eq, h.success_eq, h.mapStarted_eq.trans hstarted.symm⟩
  rw [hmap]
  exact h.map_eq

end DenseTrack

theorem DenseChain.publish_invalid [Precision S D] (c : DenseChain S D) (cloud : Cloud S) {pose : Pose D}
    (hpose : pose.isValid = false) : c.publish cloud pose = (c, .error .invalidPose) := by
  unfold publish
  rw [DenseTrack.publish_invalid c.track cloud hpose]

/-! ## Sessions -/

/-- A chain as it was set up, and the pairs that it is given: the images of the run of each number. -/
structure DenseSession (S D : Type) [Scalar S] [Scalar D] : Type 1 where
  start : DenseChain S D
  fresh : start.Fresh
  /-- Left and right image of each run. Runs are counted from one. -/
  pairs : Nat → Frame × Frame

namespace DenseSession

def settings (s : DenseSession S D) : DenseSettings S := s.start.settings

/-- The chain with a pair to be processed. -/
def give (c : DenseChain S D) (pair : Frame × Frame) : DenseChain S D := { c with left := pair.1, right := pair.2 }

variable [Precision S D]

/-- The chain after some runs, whatever their results were. -/
def chain (s : DenseSession S D) : Nat → DenseChain S D
  | 0 => s.start
  | t + 1 => (give (s.chain t) (s.pairs (t + 1))).run.1

/-- The chain as a run begins. -/
def ready (s : DenseSession S D) (t : Nat) : DenseChain S D := give (s.chain (t - 1)) (s.pairs t)

/-- The result of a run. -/
def result (s : DenseSession S D) (t : Nat) : Except Error Unit := (s.ready t).run.2

/-- What is kept after some runs. -/
def track (s : DenseSession S D) (t : Nat) : DenseTrack S D := (s.chain t).track

/-- Whether a run located its pair. -/
def success (s : DenseSession S D) (t : Nat) : Bool := (s.track t).success

/-- The components after they processed the pair of a run, and the cloud that they gave. -/
def observed (s : DenseSession S D) (t : Nat) : DenseModules S D × Cloud S :=
  (s.ready t).modules.observe (s.pairs t).1 (s.pairs t).2

/-- The stereo cloud of a run. -/
def cloud (s : DenseSession S D) (t : Nat) : Cloud S := (s.observed t).2

/-- What comes of registering the cloud of a run onto the published part of the map, the identity
being the guess. -/
def registration (s : DenseSession S D) (t : Nat) : RegistrationResult D :=
  ((s.observed t).1.registrator.run (s.cloud t, (s.track (t - 1)).cloud, some .identity)).2

/-- The last pose moved by the registered motion, if both can be composed to a valid pose. -/
def moved? (s : DenseSession S D) (t : Nat) : Option (Pose D) :=
  ((s.track (t - 1)).pose.compose? (s.registration t).transform).filter Pose.isValid

/-! ### The ways a run ends -/

/-- A track after a run that published nothing. -/
structure Quiet (old new : DenseTrack S D) : Prop where
  pose_eq : new.pose = old.pose
  cloud_eq : new.cloud = old.cloud
  map_eq : new.map = old.map
  mapStarted_eq : new.mapStarted = old.mapStarted
  success_eq : new.success = false

/-- **The five ways a run ends**, the first two without a started map. -/
inductive Outcome (s : DenseSession S D) (t : Nat) : Prop where
  /-- There is nothing to start the map with. -/
  | waiting (started : (s.track t).mapStarted = false) (cloud : (s.cloud (t + 1)).validPoints = [])
      (result : s.result (t + 1) = .ok ()) (quiet : Quiet (s.track t) (s.track (t + 1)))
  /-- The cloud starts the map. -/
  | started (started : (s.track t).mapStarted = false) (cloud : (s.cloud (t + 1)).validPoints ≠ [])
      (result : s.result (t + 1) = .ok ())
      (published : DenseTrack.Published s.settings (s.cloud (t + 1)) .identity
        { s.track t with mapStarted := true } (s.track (t + 1)))
  /-- The cloud cannot be registered. -/
  | unregistered (started : (s.track t).mapStarted = true) (registration : (s.registration (t + 1)).success = false)
      (result : s.result (t + 1) = .ok ()) (quiet : Quiet (s.track t) (s.track (t + 1)))
  /-- The registered motion leads to no valid pose. -/
  | refused (started : (s.track t).mapStarted = true) (registration : (s.registration (t + 1)).success = true)
      (moved : s.moved? (t + 1) = none) (result : s.result (t + 1) = .error .invalidPose)
      (quiet : Quiet (s.track t) (s.track (t + 1)))
  /-- The pose of the pair is published. -/
  | located (pose : Pose D) (started : (s.track t).mapStarted = true)
      (registration : (s.registration (t + 1)).success = true) (moved : s.moved? (t + 1) = some pose)
      (result : s.result (t + 1) = .ok ())
      (published : DenseTrack.Published s.settings (s.cloud (t + 1)) pose (s.track t) (s.track (t + 1)))

/-- What is published once the map is started. -/
structure Standing (s : DenseSession S D) (t : Nat) : Prop where
  pose_valid : (s.track t).pose.isValid = true
  lastPose_eq : (s.track t).map.lastPose = (s.track t).pose
  scene_eq : (s.track t).map.sceneAt (s.track t).pose s.settings.searchRadius = .ok (s.track t).cloud

/-- A session in step: its settings are those it was set up with, and a started map is published. -/
structure InStep (s : DenseSession S D) (t : Nat) : Prop where
  settings_eq : (s.chain t).settings = s.settings
  standing : (s.track t).mapStarted = true → s.Standing t

/-- The chain of a run once its pair is observed. -/
def seeing (s : DenseSession S D) (t : Nat) : DenseChain S D :=
  { s.ready t with modules := (s.observed t).1, track := { (s.ready t).track with success := false } }

/-- The chain of a run once its cloud is registered. -/
def registered (s : DenseSession S D) (t : Nat) : DenseChain S D :=
  { s.seeing t with modules := { (s.observed t).1 with
      registrator := ((s.observed t).1.registrator.run (s.cloud t, (s.track (t - 1)).cloud, some .identity)).1 } }

theorem run_eq (s : DenseSession S D) (t : Nat) : (s.ready t).run =
    if (s.ready t).track.mapStarted then (s.seeing t).register (s.cloud t)
    else if (s.cloud t).validPoints.isEmpty then (s.seeing t, .ok ())
    else DenseChain.publish { s.seeing t with track := { (s.seeing t).track with mapStarted := true } }
      (s.cloud t) .identity := rfl

theorem quiet_seeing (s : DenseSession S D) (t : Nat) : Quiet (s.track t) (s.seeing (t + 1)).track :=
  ⟨rfl, rfl, rfl, rfl, rfl⟩

/-- A run that ends with the track as it was seen published nothing. -/
theorem step_of_quiet {s : DenseSession S D} {t : Nat} {c : DenseChain S D} {result : Except Error Unit}
    (h : s.InStep t) (hrun : (s.ready (t + 1)).run = (c, result)) (htrack : c.track = (s.seeing (t + 1)).track)
    (hsettings : c.settings = (s.chain t).settings) :
    s.result (t + 1) = result ∧ Quiet (s.track t) (s.track (t + 1)) ∧ s.InStep (t + 1) := by
  have hchain : s.chain (t + 1) = c := congrArg Prod.fst hrun
  have hnew : s.track (t + 1) = (s.seeing (t + 1)).track := (congrArg DenseChain.track hchain).trans htrack
  have hquiet : Quiet (s.track t) (s.track (t + 1)) := by
    rw [hnew]
    exact s.quiet_seeing t
  refine ⟨congrArg Prod.snd hrun, hquiet, ?_, ?_⟩
  · rw [hchain, hsettings]
    exact h.settings_eq
  · intro hstarted
    rw [hquiet.mapStarted_eq] at hstarted
    obtain ⟨hvalid, hlast, hscene⟩ := h.standing hstarted
    refine ⟨?_, ?_, ?_⟩
    · rw [hquiet.pose_eq]
      exact hvalid
    · rw [hquiet.map_eq, hquiet.pose_eq]
      exact hlast
    · rw [hquiet.map_eq, hquiet.pose_eq, hquiet.cloud_eq]
      exact hscene

/-- A run that ends with publishing a valid pose published it. -/
theorem step_of_publish {s : DenseSession S D} {t : Nat} {c : DenseChain S D} {pose : Pose D} (h : s.InStep t)
    (hpose : pose.isValid = true) (hrun : (s.ready (t + 1)).run = c.publish (s.cloud (t + 1)) pose)
    (hsettings : c.settings = (s.chain t).settings) :
    s.result (t + 1) = .ok () ∧
      DenseTrack.Published s.settings (s.cloud (t + 1)) pose c.track (s.track (t + 1)) ∧ s.InStep (t + 1) := by
  have hsame : c.settings = s.settings := hsettings.trans h.settings_eq
  obtain ⟨_, hradius⟩ := DenseSettings.checks_of_validate s.fresh.validated
  obtain ⟨new, hpublish, hpublished⟩ :=
    DenseTrack.publish_valid s.settings c.track (s.cloud (t + 1)) hradius hpose
  have hend : (s.ready (t + 1)).run = ({ c with track := new }, .ok ()) := by
    rw [hrun]
    unfold DenseChain.publish
    rw [hsame, hpublish]
  have hchain : s.chain (t + 1) = { c with track := new } := congrArg Prod.fst hend
  have htrack : s.track (t + 1) = new := congrArg DenseChain.track hchain
  refine ⟨congrArg Prod.snd hend, ?_, ?_, ?_⟩
  · rw [htrack]
    exact hpublished
  · rw [hchain]
    exact hsame
  · intro _
    refine ⟨?_, ?_, ?_⟩
    · rw [htrack, hpublished.pose_eq]
      exact hpose
    · rw [htrack, hpublished.pose_eq]
      exact hpublished.lastPose_eq
    · rw [htrack, hpublished.pose_eq]
      exact hpublished.scene_eq

/-- Registration is onto the published cloud, since that is what the map shows around the pose. A motion that leads
to no valid pose is refused, be it by the composition or by the map. -/
theorem register_eq {s : DenseSession S D} {t : Nat} (h : s.InStep t) (hstarted : (s.track t).mapStarted = true) :
    (s.seeing (t + 1)).register (s.cloud (t + 1)) =
      if (s.registration (t + 1)).success then
        match s.moved? (t + 1) with
        | some pose => (s.registered (t + 1)).publish (s.cloud (t + 1)) pose
        | none => (s.registered (t + 1), .error .invalidPose)
      else (s.registered (t + 1), .ok ()) := by
  -- the part of the map that is registered against is the published one
  have hscene : (s.seeing (t + 1)).track.map.sceneAt (s.seeing (t + 1)).track.pose
      (s.seeing (t + 1)).settings.searchRadius = .ok (s.track t).cloud := by
    show (s.track t).map.sceneAt (s.track t).pose (s.chain t).settings.searchRadius = _
    rw [h.settings_eq]
    exact (h.standing hstarted).scene_eq
  have hregister : (s.seeing (t + 1)).register (s.cloud (t + 1)) =
      if (s.registration (t + 1)).success then
        match (s.track t).pose.compose? (s.registration (t + 1)).transform with
        | some pose => (s.registered (t + 1)).publish (s.cloud (t + 1)) pose
        | none => (s.registered (t + 1), .error .invalidPose)
      else (s.registered (t + 1), .ok ()) := by
    unfold DenseChain.register
    rw [hscene]
    rfl
  have hmoved : s.moved? (t + 1)
      = ((s.track t).pose.compose? (s.registration (t + 1)).transform).filter Pose.isValid := rfl
  rw [hregister, hmoved]
  cases (s.track t).pose.compose? (s.registration (t + 1)).transform with
  | none => rfl
  | some pose =>
    cases hvalid : pose.isValid with
    | true => rw [Option.filter_some_pos hvalid]
    | false =>
      rw [Option.filter_some_neg (by simp [hvalid])]
      simp only [DenseChain.publish_invalid _ _ hvalid]

/-- **One run keeps step**, and ends in one of the five ways. -/
theorem InStep.step {s : DenseSession S D} {t : Nat} (hidentity : (Pose.identity : Pose D).isValid = true)
    (h : s.InStep t) : s.Outcome t ∧ s.InStep (t + 1) := by
  have hrun : (s.ready (t + 1)).run = if (s.track t).mapStarted then _ else _ := s.run_eq (t + 1)
  cases hstarted : (s.track t).mapStarted with
  | false =>
    rw [hstarted, if_neg Bool.false_ne_true] at hrun
    by_cases hempty : (s.cloud (t + 1)).validPoints = []
    · rw [if_pos (List.isEmpty_iff.mpr hempty)] at hrun
      obtain ⟨hresult, hquiet, hnext⟩ := step_of_quiet h hrun rfl rfl
      exact ⟨.waiting hstarted hempty hresult hquiet, hnext⟩
    · rw [if_neg fun hc => hempty (List.isEmpty_iff.mp hc)] at hrun
      obtain ⟨hresult, hpublished, hnext⟩ := step_of_publish h hidentity hrun rfl
      exact ⟨.started hstarted hempty hresult (hpublished.of_same rfl rfl), hnext⟩
  | true =>
    rw [hstarted, if_pos rfl, register_eq h hstarted] at hrun
    cases hsuccess : (s.registration (t + 1)).success with
    | false =>
      rw [hsuccess, if_neg Bool.false_ne_true] at hrun
      obtain ⟨hresult, hquiet, hnext⟩ := step_of_quiet h hrun rfl rfl
      exact ⟨.unregistered hstarted hsuccess hresult hquiet, hnext⟩
    | true =>
      rw [hsuccess, if_pos rfl] at hrun
      cases hmoved : s.moved? (t + 1) with
      | none =>
        rw [hmoved] at hrun
        obtain ⟨hresult, hquiet, hnext⟩ := step_of_quiet h hrun rfl rfl
        exact ⟨.refused hstarted hsuccess hmoved hresult hquiet, hnext⟩
      | some pose =>
        rw [hmoved] at hrun
        have hvalid : pose.isValid = true := (Option.filter_eq_some_iff.mp hmoved).2
        obtain ⟨hresult, hpublished, hnext⟩ := step_of_publish h hvalid hrun rfl
        exact ⟨.located pose hstarted hsuccess hmoved hresult (hpublished.of_same rfl rfl), hnext⟩

/-! ## All runs -/

theorem mapStarted_zero (s : DenseSession S D) : (s.track 0).mapStarted = false :=
  congrArg DenseTrack.mapStarted (DenseTrack.create_eq s.fresh.created).2

theorem pose_zero (s : DenseSession S D) : (s.track 0).pose = .identity :=
  congrArg DenseTrack.pose (DenseTrack.create_eq s.fresh.created).2

theorem inStep_zero (s : DenseSession S D) : s.InStep 0 := by
  refine ⟨rfl, ?_⟩
  intro hstarted
  rw [s.mapStarted_zero] at hstarted
  cases hstarted

/-- **Every run begins in step**, whatever the runs before it came to. -/
theorem inStep (hidentity : (Pose.identity : Pose D).isValid = true) (s : DenseSession S D) (t : Nat) :
    s.InStep t := by
  induction t with
  | zero => exact s.inStep_zero
  | succ t ih => exact (ih.step hidentity).2

/-- **Every run ends in one of the five ways.** -/
theorem outcome (hidentity : (Pose.identity : Pose D).isValid = true) (s : DenseSession S D) (t : Nat) :
    s.Outcome t := ((s.inStep hidentity t).step hidentity).1

/-! ### Successes -/

/-- The runs that located their pairs. -/
def successes (s : DenseSession S D) (t : Nat) : List Nat := (List.range' 1 t).filter s.success

theorem mem_successes {s : DenseSession S D} {t j : Nat} :
    j ∈ s.successes t ↔ 0 < j ∧ j ≤ t ∧ s.success j = true := by
  unfold successes
  rw [List.mem_filter, List.mem_range'_1, and_assoc, Nat.add_comm 1 t, Nat.lt_succ_iff]
  exact Iff.rfl

theorem successes_failure {s : DenseSession S D} {t : Nat} (h : s.success (t + 1) = false) :
    s.successes (t + 1) = s.successes t := by
  have hlast : [t + 1].filter s.success = [] := List.filter_cons_of_neg (by simp [h])
  unfold successes
  rw [List.range'_1_concat, List.filter_append, Nat.add_comm 1 t, hlast, List.append_nil]

theorem successes_success {s : DenseSession S D} {t : Nat} (h : s.success (t + 1) = true) :
    s.successes (t + 1) = s.successes t ++ [t + 1] := by
  have hlast : [t + 1].filter s.success = [t + 1] := List.filter_cons_of_pos h
  unfold successes
  rw [List.range'_1_concat, List.filter_append, Nat.add_comm 1 t, hlast]

/-- What was added to the map, in order: the cloud of each success at the pose that it published. -/
def insertions (s : DenseSession S D) (t : Nat) : List (Cloud S × Pose D) :=
  (s.successes t).map fun j => (s.cloud j, (s.track j).pose)

/-- The motions that were accepted, in order: those of all successes but the first, which starts the map. -/
def motions (s : DenseSession S D) (t : Nat) : List (Pose D) :=
  (s.successes t).tail.map fun j => (s.registration j).transform

/-- **A session accounted for** after some runs, and the next of its runs. -/
structure Accounted (s : DenseSession S D) (t : Nat) : Prop where
  /-- A run without success leaves the pose, the published cloud, the map and its mark as they were. -/
  unchanged : s.success (t + 1) = false →
    (s.track (t + 1)).pose = (s.track t).pose ∧ (s.track (t + 1)).cloud = (s.track t).cloud ∧
      (s.track (t + 1)).map = (s.track t).map ∧ (s.track (t + 1)).mapStarted = (s.track t).mapStarted
  /-- A run ends well, or without success because a pose was invalid. -/
  result_eq : s.result (t + 1) = .ok () ∨
    (s.result (t + 1) = .error .invalidPose ∧ s.success (t + 1) = false)
  /-- The map is started once there was a cloud with a valid point. -/
  mapStarted_iff : (s.track t).mapStarted = true ↔ ∃ j, 0 < j ∧ j ≤ t ∧ (s.cloud j).validPoints ≠ []
  /-- Until then a run is a success exactly if its cloud has a valid point. -/
  first : (s.track t).mapStarted = false → (s.success (t + 1) = true ↔ (s.cloud (t + 1)).validPoints ≠ [])
  /-- It then publishes the identity. -/
  identity : (s.track t).mapStarted = false → s.success (t + 1) = true → (s.track (t + 1)).pose = .identity
  /-- A later run is a success exactly if its cloud is registered and the last pose, moved by the registered
  motion, is valid. -/
  later : (s.track t).mapStarted = true → (s.success (t + 1) = true ↔ (s.registration (t + 1)).success = true ∧
    ∃ pose, (s.track t).pose.compose? (s.registration (t + 1)).transform = some pose ∧ pose.isValid = true)
  /-- It then publishes that pose. -/
  moved : (s.track t).mapStarted = true → s.success (t + 1) = true →
    (s.track t).pose.compose? (s.registration (t + 1)).transform = some (s.track (t + 1)).pose
  /-- The published pose is composed of the accepted motions, in their order. -/
  composed : (s.motions t).foldlM Pose.compose? .identity = some (s.track t).pose
  /-- The map is the replay of the successes. -/
  replayed : ∃ empty, VoxelMap.create s.settings.resolution s.settings.fusionPolicy = .ok empty ∧
    empty.addClouds (s.insertions t) = .ok (s.track t).map
  /-- After any success the published cloud is the part of the map around the last pose. -/
  scene_eq : (∃ j ≤ t, s.success j = true) →
    (s.track t).map.scene s.settings.searchRadius = .ok (s.track t).cloud

/-- A run that published its cloud at the pose that it ends with. -/
structure Publishing (s : DenseSession S D) (t : Nat) : Prop where
  success_eq : s.success (t + 1) = true
  result_eq : s.result (t + 1) = .ok ()
  mapStarted_eq : (s.track (t + 1)).mapStarted = true
  map_eq : ∃ added, (s.track t).map.addCloud (s.cloud (t + 1)) (s.track (t + 1)).pose
    = ((s.track (t + 1)).map, .ok added)

/-- Whatever its outcome, a run was quiet or it published its cloud. -/
theorem Outcome.quiet_or_publishing {s : DenseSession S D} {t : Nat} (h : s.Outcome t) :
    (s.success (t + 1) = false ∧ Quiet (s.track t) (s.track (t + 1))) ∨ s.Publishing t := by
  cases h with
  | waiting started cloud result quiet => exact .inl ⟨quiet.success_eq, quiet⟩
  | unregistered started registration result quiet => exact .inl ⟨quiet.success_eq, quiet⟩
  | refused started registration moved result quiet => exact .inl ⟨quiet.success_eq, quiet⟩
  | started started cloud result published =>
    refine .inr ⟨published.success_eq, result, published.mapStarted_eq, ?_⟩
    rw [published.pose_eq]
    exact published.map_eq
  | located pose started registration moved result published =>
    refine .inr ⟨published.success_eq, result, published.mapStarted_eq.trans started, ?_⟩
    rw [published.pose_eq]
    exact published.map_eq

section Accounting

variable (hidentity : (Pose.identity : Pose D).isValid = true) (s : DenseSession S D)

include hidentity

theorem quiet_of_failure {t : Nat} (h : s.success (t + 1) = false) : Quiet (s.track t) (s.track (t + 1)) := by
  rcases (s.outcome hidentity t).quiet_or_publishing with ⟨_, hquiet⟩ | hpublishing
  · exact hquiet
  · rw [hpublishing.success_eq] at h
    cases h

theorem publishing_of_success {t : Nat} (h : s.success (t + 1) = true) : s.Publishing t := by
  rcases (s.outcome hidentity t).quiet_or_publishing with ⟨hfailure, _⟩ | hpublishing
  · rw [h] at hfailure
    cases hfailure
  · exact hpublishing

/-- The map is started by the first success. -/
theorem mapStarted_iff_successes (t : Nat) : (s.track t).mapStarted = true ↔ s.successes t ≠ [] := by
  induction t with
  | zero =>
    rw [s.mapStarted_zero]
    exact ⟨fun h => absurd h Bool.false_ne_true, fun h => absurd rfl h⟩
  | succ t ih =>
    cases hsuccess : s.success (t + 1) with
    | false => rw [(s.quiet_of_failure hidentity hsuccess).mapStarted_eq, successes_failure hsuccess, ih]
    | true =>
      rw [successes_success hsuccess]
      exact ⟨fun _ => List.append_ne_nil_of_right_ne_nil _ (List.cons_ne_nil _ _),
        fun _ => (s.publishing_of_success hidentity hsuccess).mapStarted_eq⟩

/-- A run starts the map by a cloud with a valid point, and by nothing else. -/
theorem mapStarted_succ (t : Nat) : (s.track (t + 1)).mapStarted = true ↔
    (s.track t).mapStarted = true ∨ (s.cloud (t + 1)).validPoints ≠ [] := by
  cases s.outcome hidentity t with
  | waiting started cloud result quiet =>
    rw [quiet.mapStarted_eq, started, cloud]
    simp
  | started started cloud result published =>
    rw [published.mapStarted_eq]
    exact ⟨fun _ => .inr cloud, fun _ => rfl⟩
  | unregistered started registration result quiet =>
    rw [quiet.mapStarted_eq]
    exact ⟨.inl, fun _ => started⟩
  | refused started registration moved result quiet =>
    rw [quiet.mapStarted_eq]
    exact ⟨.inl, fun _ => started⟩
  | located pose started registration moved result published =>
    rw [published.mapStarted_eq]
    exact ⟨.inl, fun _ => started⟩

theorem mapStarted_iff_cloud (t : Nat) :
    (s.track t).mapStarted = true ↔ ∃ j, 0 < j ∧ j ≤ t ∧ (s.cloud j).validPoints ≠ [] := by
  induction t with
  | zero =>
    rw [s.mapStarted_zero]
    constructor
    · intro h
      cases h
    · rintro ⟨j, hpos, hle, _⟩
      exact absurd hle (Nat.not_le_of_lt hpos)
  | succ t ih =>
    rw [s.mapStarted_succ hidentity, ih]
    constructor
    · rintro (⟨j, hpos, hle, hcloud⟩ | hcloud)
      · exact ⟨j, hpos, Nat.le_succ_of_le hle, hcloud⟩
      · exact ⟨t + 1, Nat.succ_pos t, Nat.le_refl _, hcloud⟩
    · rintro ⟨j, hpos, hle, hcloud⟩
      rcases Nat.le_succ_iff.mp hle with hold | rfl
      · exact .inl ⟨j, hpos, hold, hcloud⟩
      · exact .inr hcloud

/-- Without a map a run is a success exactly if it starts one. -/
theorem success_first {t : Nat} (h : (s.track t).mapStarted = false) :
    s.success (t + 1) = true ↔ (s.cloud (t + 1)).validPoints ≠ [] := by
  have hstarted := s.mapStarted_succ hidentity t
  rw [h] at hstarted
  constructor
  · intro hsuccess
    rcases hstarted.mp (s.publishing_of_success hidentity hsuccess).mapStarted_eq with hold | hcloud
    · cases hold
    · exact hcloud
  · intro hcloud
    rw [← Bool.not_eq_false]
    intro hfailure
    have hquiet := (s.quiet_of_failure hidentity hfailure).mapStarted_eq
    rw [hstarted.mpr (.inr hcloud), h] at hquiet
    cases hquiet

/-- With a map a run is a success exactly if its registered motion leads to a valid pose. -/
theorem success_later {t : Nat} (h : (s.track t).mapStarted = true) :
    s.success (t + 1) = true ↔ (s.registration (t + 1)).success = true ∧
      ∃ pose, (s.track t).pose.compose? (s.registration (t + 1)).transform = some pose ∧ pose.isValid = true := by
  have hmoved : (∃ pose, (s.track t).pose.compose? (s.registration (t + 1)).transform = some pose ∧ pose.isValid = true)
      ↔ ∃ pose, s.moved? (t + 1) = some pose :=
    exists_congr fun _ => Option.filter_eq_some_iff.symm
  rw [hmoved]
  cases s.outcome hidentity t with
  | waiting started cloud result quiet =>
    rw [h] at started
    cases started
  | started started cloud result published =>
    rw [h] at started
    cases started
  | unregistered started registration result quiet =>
    have hfalse : s.success (t + 1) = false := quiet.success_eq
    simp [hfalse, registration]
  | refused started registration moved result quiet =>
    have hfalse : s.success (t + 1) = false := quiet.success_eq
    simp [hfalse, moved]
  | located pose started registration moved result published =>
    have htrue : s.success (t + 1) = true := published.success_eq
    simp [htrue, registration, moved]

/-- A success that starts the map is at the identity, any other at the last pose moved by its motion. -/
theorem pose_of_success {t : Nat} (h : s.success (t + 1) = true) :
    if (s.track t).mapStarted then
      (s.track t).pose.compose? (s.registration (t + 1)).transform = some (s.track (t + 1)).pose
    else (s.track (t + 1)).pose = .identity := by
  cases s.outcome hidentity t with
  | waiting started cloud result quiet =>
    have hfalse : s.success (t + 1) = false := quiet.success_eq
    rw [h] at hfalse
    cases hfalse
  | started started cloud result published =>
    rw [started, if_neg Bool.false_ne_true]
    exact published.pose_eq
  | unregistered started registration result quiet =>
    have hfalse : s.success (t + 1) = false := quiet.success_eq
    rw [h] at hfalse
    cases hfalse
  | refused started registration moved result quiet =>
    have hfalse : s.success (t + 1) = false := quiet.success_eq
    rw [h] at hfalse
    cases hfalse
  | located pose started registration moved result published =>
    rw [started, if_pos rfl, published.pose_eq]
    exact (Option.filter_eq_some_iff.mp moved).1

/-- A run ends well, or without success because a pose was invalid. -/
theorem result_cases (t : Nat) :
    s.result (t + 1) = .ok () ∨ (s.result (t + 1) = .error .invalidPose ∧ s.success (t + 1) = false) := by
  cases s.outcome hidentity t with
  | waiting started cloud result quiet => exact .inl result
  | started started cloud result published => exact .inl result
  | unregistered started registration result quiet => exact .inl result
  | refused started registration moved result quiet => exact .inr ⟨result, quiet.success_eq⟩
  | located pose started registration moved result published => exact .inl result

theorem composed (t : Nat) : (s.motions t).foldlM Pose.compose? .identity = some (s.track t).pose := by
  induction t with
  | zero => exact congrArg some s.pose_zero.symm
  | succ t ih =>
    unfold motions
    cases hsuccess : s.success (t + 1) with
    | false =>
      rw [successes_failure hsuccess, (s.quiet_of_failure hidentity hsuccess).pose_eq]
      exact ih
    | true =>
      have hpose := s.pose_of_success hidentity hsuccess
      rw [successes_success hsuccess]
      -- the first success has no motion of its own: it starts the map at the identity
      by_cases hnone : s.successes t = []
      · rw [if_neg fun hc => (s.mapStarted_iff_successes hidentity t).mp hc hnone] at hpose
        rw [hnone, hpose]
        rfl
      · rw [if_pos ((s.mapStarted_iff_successes hidentity t).mpr hnone)] at hpose
        unfold motions at ih
        rw [List.tail_append_of_ne_nil hnone, List.map_append, List.foldlM_append, ih]
        show ((s.track t).pose.compose? (s.registration (t + 1)).transform).bind some = _
        rw [hpose]
        rfl

/-- After any success its map and its part around the pose are published. -/
theorem standing_of_success {t j : Nat} (hj : j ≤ t) (h : s.success j = true) : s.Standing t := by
  apply (s.inStep hidentity t).standing
  rw [s.mapStarted_iff_successes hidentity]
  apply List.ne_nil_of_mem (a := j)
  rw [mem_successes]
  refine ⟨?_, hj, h⟩
  rw [Nat.pos_iff_ne_zero]
  rintro rfl
  -- no run has the number zero
  have hnone : (s.track 0).success = false := congrArg DenseTrack.success (DenseTrack.create_eq s.fresh.created).2
  rw [show (s.track 0).success = true from h] at hnone
  cases hnone

theorem replayed (t : Nat) : (s.track 0).map.addClouds (s.insertions t) = .ok (s.track t).map := by
  induction t with
  | zero => rfl
  | succ t ih =>
    unfold insertions at ih ⊢
    cases hsuccess : s.success (t + 1) with
    | false =>
      rw [successes_failure hsuccess, (s.quiet_of_failure hidentity hsuccess).map_eq]
      exact ih
    | true =>
      obtain ⟨added, hadd⟩ := (s.publishing_of_success hidentity hsuccess).map_eq
      rw [successes_success hsuccess, List.map_append, VoxelMap.addClouds_append ih]
      exact VoxelMap.addClouds_single hadd

end Accounting

/-- **A session is accounted for** after every number of runs, whatever these came to. Poses are 64-bit numbers. -/
theorem dense_runs_accounted [Precision S Float] (s : DenseSession S Float) (t : Nat) : s.Accounted t := by
  -- of the arithmetic no more is used than that the identity is a valid pose
  have hidentity : (Pose.identity : Pose Float).isValid = true := by decide
  refine ⟨?_, s.result_cases hidentity t, s.mapStarted_iff_cloud hidentity t, s.success_first hidentity, ?_,
    s.success_later hidentity, ?_, s.composed hidentity t, ?_, ?_⟩
  · intro hfailure
    have hquiet := s.quiet_of_failure hidentity hfailure
    exact ⟨hquiet.pose_eq, hquiet.cloud_eq, hquiet.map_eq, hquiet.mapStarted_eq⟩
  · intro hwaiting hsuccess
    have hpose := s.pose_of_success hidentity hsuccess
    rw [hwaiting, if_neg Bool.false_ne_true] at hpose
    exact hpose
  · intro hstarted hsuccess
    have hpose := s.pose_of_success hidentity hsuccess
    rw [if_pos hstarted] at hpose
    exact hpose
  · exact ⟨(s.track 0).map, (DenseTrack.create_eq s.fresh.created).1, s.replayed hidentity t⟩
  · rintro ⟨j, hj, hsuccess⟩
    have hstanding := s.standing_of_success hidentity hj hsuccess
    unfold VoxelMap.scene
    rw [hstanding.lastPose_eq]
    exact hstanding.scene_eq

end DenseSession
end StereoMapping
