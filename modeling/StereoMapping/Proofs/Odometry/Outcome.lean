import StereoMapping.Proofs.Odometry.Publish
import StereoMapping.Proofs.Odometry.Window

/-!
# `Proofs.Odometry.Outcome` — what a run comes to

After a pair is taken in, a run ends in one of three ways: there is no acceptable estimate, or the poses
of an accepted one are refused, or the pair is located and its pose published. `Outcome` has one case for
each, with all that can be said of the track afterwards. The run was in step with the session before, so it is
in step after, and by induction every run is.

## Contents
- `KeypointChain.Estimated`: what locating a pair leaves alone; `locate_waiting`, `locate_accepted`, ….
- `Session.estimate`, `accepted?`: what the estimator says in a run, if the window is full.
- `Quiet`: a track where nothing was published; `Outcome`: the three ways a run ends.
- `InStep`, `InStep.step`, `inStep`, `outcome`: one run, then all of them.
- `Aligned`, `window_alignment`: rings, table and the estimator's input in terms of the runs.
-/

namespace StereoMapping

variable {S D : Type} [Scalar S] [Scalar D] [Precision S D]

/-! ## Locating -/

namespace KeypointTrack

omit [Scalar S] [Precision S D] in
/-- **The newest pose is there when it is checked**, since the window is not empty. -/
theorem acceptedPoses_ok {settings : KeypointSettings S D} (hpos : 0 < settings.windowSize)
    (estimate : WindowEstimate S D) : ∃ accepted, acceptedPoses settings estimate = .ok accepted := by
  unfold acceptedPoses
  by_cases hall : estimate.success ∧ estimate.poses.length = settings.windowSize
  · rw [if_pos hall, poseAt_of_lt (hall.2.symm ▸ hpos)]
    exact ⟨_, rfl⟩
  · rw [if_neg hall]
    exact ⟨none, rfl⟩

/-- The poses of an estimate, if they are acceptable. -/
def acceptedPoses? (settings : KeypointSettings S D) (estimate : WindowEstimate S D) : Option (List (Pose D)) :=
  (acceptedPoses settings estimate).toOption.join

omit [Scalar S] [Precision S D] in
theorem acceptedPoses_eq {settings : KeypointSettings S D} (hpos : 0 < settings.windowSize)
    (estimate : WindowEstimate S D) : acceptedPoses settings estimate = .ok (acceptedPoses? settings estimate) := by
  obtain ⟨accepted, haccepted⟩ := acceptedPoses_ok hpos estimate
  unfold acceptedPoses?
  rw [haccepted]
  rfl

end KeypointTrack

namespace KeypointChain

/-- Before the window is full the pairs are counted. -/
theorem locate_waiting {c : KeypointChain S D} (h : c.track.seen + 1 < c.settings.windowSize) :
    c.locate = ({ c with track := { c.track with seen := c.track.seen + 1 } }, .ok ()) := by
  unfold locate
  rw [if_pos h]

/-- The chain with its estimator run on the table of the window. -/
def estimating (c : KeypointChain S D) : KeypointChain S D :=
  { c with
    modules := { c.modules with estimator := (c.modules.estimator.run c.track.table).1 }
    track := { c.track with seen := c.settings.windowSize } }

/-- The poses of the window, if they are acceptable. -/
def accepted? (c : KeypointChain S D) : Option (List (Pose D)) :=
  KeypointTrack.acceptedPoses? c.settings (c.modules.estimator.run c.track.table).2

omit [Scalar S] [Precision S D] in
theorem acceptedPoses_run {c : KeypointChain S D} (hpos : 0 < c.settings.windowSize) :
    KeypointTrack.acceptedPoses c.settings (c.modules.estimator.run c.track.table).2 = .ok c.accepted? :=
  KeypointTrack.acceptedPoses_eq hpos _

/-- What locating leaves alone, whatever comes of it, and what it does to the estimator. -/
structure Estimated (old new : KeypointChain S D) : Prop where
  settings_eq : new.settings = old.settings
  estimator_eq : new.modules.estimator = (old.modules.estimator.run old.track.table).1
  table_eq : new.track.table = old.track.table
  history_eq : new.track.history = old.track.history
  seen_eq : new.track.seen = old.settings.windowSize

omit [Scalar S] [Scalar D] [Precision S D] in
theorem estimated_estimating (c : KeypointChain S D) : Estimated c c.estimating :=
  ⟨rfl, rfl, rfl, rfl, rfl⟩

theorem estimated_published {c : KeypointChain S D} {settings : KeypointSettings S D} {dense : Nat → Cloud S}
    {poses : List (Pose D)} {pose : Pose D} {new : KeypointTrack S D}
    (h : KeypointTrack.Published settings dense poses pose c.estimating.track new) :
    Estimated c { c.estimating with track := new } := by
  have htable : new.table = c.estimating.track.table := by rw [h.track_eq]
  have hhistory : new.history = c.estimating.track.history := by rw [h.track_eq]
  have hseen : new.seen = c.estimating.track.seen := by rw [h.track_eq]
  exact ⟨rfl, rfl, htable, hhistory, hseen⟩

/-- Without an acceptable estimate nothing is published. -/
theorem locate_unaccepted {c : KeypointChain S D} (hpos : 0 < c.settings.windowSize)
    (h : ¬ c.track.seen + 1 < c.settings.windowSize) (hnone : c.accepted? = none) :
    c.locate = (c.estimating, .ok ()) := by
  have hestimate := acceptedPoses_run hpos
  rw [hnone] at hestimate
  unfold locate
  rw [if_neg h]
  simp only [hestimate]
  rfl

/-- With one, its poses are published or refused. -/
theorem locate_accepted {c : KeypointChain S D} {poses : List (Pose D)} (hpos : 0 < c.settings.windowSize)
    (h : ¬ c.track.seen + 1 < c.settings.windowSize) (hsome : c.accepted? = some poses) :
    c.locate = ({ c.estimating with track := (c.estimating.track.publish c.settings poses).1 },
      (c.estimating.track.publish c.settings poses).2) := by
  have hestimate := acceptedPoses_run hpos
  rw [hsome] at hestimate
  unfold locate
  rw [if_neg h]
  simp only [hestimate]
  rfl

end KeypointChain

omit [Scalar S] [Precision S D] in
/-- **Which poses are accepted**: those of an estimate that succeeded, one for each camera, with a newest one that
passes its check. -/
theorem KeypointTrack.acceptedPoses?_eq_some_iff {settings : KeypointSettings S D} {estimate : WindowEstimate S D}
    {poses : List (Pose D)} :
    acceptedPoses? settings estimate = some poses ↔
      (estimate.success = true ∧ estimate.poses.length = settings.windowSize) ∧ estimate.poses = poses ∧
        ∃ newest, poses.head? = some newest ∧ settings.poseCheck.accepts newest = true := by
  unfold acceptedPoses? acceptedPoses
  by_cases hall : estimate.success ∧ estimate.poses.length = settings.windowSize
  · rw [if_pos hall]
    cases hposes : estimate.poses with
    | nil =>
      constructor
      · rintro ⟨⟩
      · rintro ⟨_, rfl, newest, ⟨⟩, _⟩
    | cons newest rest =>
      show (if settings.poseCheck.accepts newest then some (newest :: rest) else none) = some poses ↔ _
      rw [Option.ite_none_right_eq_some, Option.some_inj, ← hposes]
      constructor
      · rintro ⟨hcheck, rfl⟩
        exact ⟨hall, rfl, newest, by rw [hposes]; rfl, hcheck⟩
      · rintro ⟨_, rfl, other, hother, hcheck⟩
        rw [hposes] at hother
        exact ⟨Option.some.inj hother ▸ hcheck, rfl⟩
  · rw [if_neg hall]
    constructor
    · rintro ⟨⟩
    · rintro ⟨hc, _⟩
      exact absurd hc hall

omit [Scalar S] [Precision S D] in
/-- Accepted poses are those of the estimate, one for each camera. -/
theorem length_of_acceptedPoses? {settings : KeypointSettings S D} {estimate : WindowEstimate S D}
    {poses : List (Pose D)} (h : KeypointTrack.acceptedPoses? settings estimate = some poses) :
    estimate.poses = poses ∧ poses.length = settings.windowSize := by
  obtain ⟨hall, rfl, _⟩ := KeypointTrack.acceptedPoses?_eq_some_iff.mp h
  exact ⟨rfl, hall.2⟩

namespace Session

/-- What the estimator shows after a run. -/
def estimate (s : Session S D) (t : Nat) : WindowEstimate S D :=
  (s.chain t).modules.estimator.output (s.chain t).modules.estimator.state

/-- The poses that a run estimates and accepts. Nothing is estimated before the window is full. -/
def accepted? (s : Session S D) (t : Nat) : Option (List (Pose D)) :=
  if s.size ≤ t then KeypointTrack.acceptedPoses? s.settings (s.estimate t) else none

/-- The dense cloud some steps back from a run. -/
def denseBack (s : Session S D) (t steps : Nat) : Cloud S := (s.observation (t - steps)).dense

/-! ## Outcomes -/

/-- A track after a run that published nothing. -/
structure Quiet (old new : KeypointTrack S D) : Prop where
  pose_eq : new.pose = old.pose
  cloud_eq : new.cloud = old.cloud
  map_eq : new.map = old.map
  mapStarted_eq : new.mapStarted = old.mapStarted
  steps_eq : new.stepsSincePose = old.stepsSincePose + 1
  success_eq : new.success = false

/-- The track of a run as it comes to be published. -/
def pending (s : Session S D) (t : Nat) : KeypointTrack S D :=
  { (s.perceived t).track with seen := s.size }

/-- **The three ways a run ends.** -/
inductive Outcome (s : Session S D) (t : Nat) : Prop where
  /-- There is no acceptable estimate. -/
  | unlocated (accepted : s.accepted? (t + 1) = none) (result : s.result (t + 1) = .ok ())
      (quiet : Quiet (s.track t) (s.track (t + 1)))
  /-- The poses of an accepted estimate cannot be published. -/
  | refused (poses : List (Pose D)) (accepted : s.accepted? (t + 1) = some poses)
      (located : (s.pending (t + 1)).located? poses = none)
      (result : s.result (t + 1) = .error .invalidPose) (quiet : Quiet (s.track t) (s.track (t + 1)))
  /-- The pose of the pair is published. -/
  | located (poses : List (Pose D)) (pose : Pose D) (accepted : s.accepted? (t + 1) = some poses)
      (located : (s.pending (t + 1)).located? poses = some pose)
      (result : s.result (t + 1) = .ok ())
      (published : KeypointTrack.Published s.settings (s.denseBack (t + 1)) poses pose (s.pending (t + 1))
        (s.track (t + 1)))

/-- A session in step: the window shows the runs there were, and they are counted up to its size. -/
structure InStep (s : Session S D) (t : Nat) : Prop where
  windowed : s.Windowed t (s.chain t)
  seen_eq : (s.track t).seen = min t s.size

/-- The estimator is run on the table of each full window, and on nothing else. -/
def Estimating (s : Session S D) (t : Nat) : Prop :=
  (s.chain (t + 1)).modules.estimator
    = if s.size ≤ t + 1 then ((s.chain t).modules.estimator.run (s.track (t + 1)).table).1
      else (s.chain t).modules.estimator

theorem Windowed.denseBack_eq {s : Session S D} {t k : Nat} {c : KeypointChain S D} (h : s.Windowed t c)
    (hk : k < min t s.size) : c.track.history.cloud k KeypointTrack.denseClouds = .ok (s.denseBack t k) :=
  h.history.dense.entry_eq .pointCloud (getElem?_map_recent _ hk)

theorem accepted?_of_full {s : Session S D} {t : Nat} (h : s.size ≤ t) :
    s.accepted? t = KeypointTrack.acceptedPoses? s.settings (s.estimate t) := by
  unfold accepted?
  rw [if_pos h]

theorem accepted?_of_waiting {s : Session S D} {t : Nat} (h : t < s.size) : s.accepted? t = none := by
  unfold accepted?
  rw [if_neg (Nat.not_le_of_lt h)]

/-- What is said of one run: it ends in step, in one of the three ways, and the estimator was run as it
should. -/
structure Step (s : Session S D) (t : Nat) : Prop where
  inStep : s.InStep (t + 1)
  outcome : s.Outcome t
  estimating : s.Estimating t

/-- What taking in the pair of a run leaves, for locating it. -/
structure Ready (s : Session S D) (t : Nat) : Prop where
  windowed : s.Windowed (t + 1) (s.perceived (t + 1))
  advanced : Advanced (s.track t) (s.perceived (t + 1)).track
  seen_eq : (s.perceived (t + 1)).track.seen = min t s.size
  estimator_eq : (s.perceived (t + 1)).modules.estimator = (s.chain t).modules.estimator
  chain_eq : s.chain (t + 1) = (s.perceived (t + 1)).locate.1
  result_eq : s.result (t + 1) = (s.perceived (t + 1)).locate.2

theorem InStep.ready {s : Session S D} {t : Nat} (h : s.InStep t) : s.Ready t := by
  obtain ⟨hok, hwindowed, hadvanced, hestimator⟩ := h.windowed.perceive
  obtain ⟨hchain, hresult⟩ := chain_succ_of_perceive hok
  exact ⟨hwindowed, hadvanced, hadvanced.seen_eq.trans h.seen_eq, hestimator, hchain, hresult⟩

theorem Ready.size_eq {s : Session S D} {t : Nat} (h : s.Ready t) :
    (s.perceived (t + 1)).settings.windowSize = s.size :=
  congrArg KeypointSettings.windowSize h.windowed.settings_eq

/-- Before the window is full. -/
theorem Ready.step_waiting {s : Session S D} {t : Nat} (h : s.Ready t) (hwait : t + 1 < s.size) :
    s.Step t := by
  have hseen : (s.perceived (t + 1)).track.seen + 1 = t + 1 := by
    rw [h.seen_eq]
    omega
  have hroom : (s.perceived (t + 1)).track.seen + 1 < (s.perceived (t + 1)).settings.windowSize := by
    rw [hseen, h.size_eq]
    exact hwait
  have hlocate := KeypointChain.locate_waiting hroom
  have hchain := h.chain_eq.trans (congrArg Prod.fst hlocate)
  have hresult := h.result_eq.trans (congrArg Prod.snd hlocate)
  have htrack : s.track (t + 1) = _ := congrArg KeypointChain.track hchain
  refine ⟨⟨?_, ?_⟩, .unlocated (accepted?_of_waiting hwait) hresult ?_, ?_⟩
  · rw [hchain]
    exact ⟨h.windowed.settings_eq, h.windowed.table, h.windowed.history⟩
  · rw [htrack]
    exact hseen.trans (Nat.min_eq_left (Nat.le_of_lt hwait)).symm
  · rw [htrack]
    exact ⟨h.advanced.pose_eq, h.advanced.cloud_eq, h.advanced.map_eq, h.advanced.mapStarted_eq,
      h.advanced.steps_eq, h.advanced.success_eq⟩
  · unfold Estimating
    rw [if_neg (Nat.not_le_of_lt hwait), hchain]
    exact h.estimator_eq

/-! ### A full window -/

/-- A run that got to its estimate ends in step. -/
theorem Ready.inStep_of_estimated {s : Session S D} {t : Nat} (h : s.Ready t) (hfull : s.size ≤ t + 1)
    (hnew : KeypointChain.Estimated (s.perceived (t + 1)) (s.chain (t + 1))) : s.InStep (t + 1) := by
  refine ⟨⟨hnew.settings_eq.trans h.windowed.settings_eq, ?_, ?_⟩, ?_⟩
  · rw [hnew.table_eq]
    exact h.windowed.table
  · rw [hnew.history_eq]
    exact h.windowed.history
  · rw [Nat.min_eq_right hfull]
    exact hnew.seen_eq.trans h.size_eq

theorem Ready.estimating_of_estimated {s : Session S D} {t : Nat} (h : s.Ready t) (hfull : s.size ≤ t + 1)
    (hnew : KeypointChain.Estimated (s.perceived (t + 1)) (s.chain (t + 1))) : s.Estimating t := by
  have htable : (s.track (t + 1)).table = (s.perceived (t + 1)).track.table := hnew.table_eq
  unfold Estimating
  rw [if_pos hfull, hnew.estimator_eq, h.estimator_eq, htable]

/-- What the estimator shows after such a run decided about it. -/
theorem Ready.accepted?_eq {s : Session S D} {t : Nat} (h : s.Ready t) (hfull : s.size ≤ t + 1)
    (hnew : KeypointChain.Estimated (s.perceived (t + 1)) (s.chain (t + 1))) :
    s.accepted? (t + 1) = (s.perceived (t + 1)).accepted? := by
  rw [accepted?_of_full hfull]
  -- the estimator has not been run again since, and still shows the estimate of this run
  unfold estimate KeypointChain.accepted?
  rw [hnew.estimator_eq, h.windowed.settings_eq]
  rfl

theorem Ready.track_estimating {s : Session S D} {t : Nat} (h : s.Ready t) :
    (s.perceived (t + 1)).estimating.track = s.pending (t + 1) := by
  unfold KeypointChain.estimating pending
  rw [h.size_eq]

theorem Ready.quiet {s : Session S D} {t : Nat} (h : s.Ready t) : Quiet (s.track t) (s.pending (t + 1)) :=
  ⟨h.advanced.pose_eq, h.advanced.cloud_eq, h.advanced.map_eq, h.advanced.mapStarted_eq,
    h.advanced.steps_eq, h.advanced.success_eq⟩

/-- The dense clouds of a full window can all be read. -/
theorem Ready.clouds {s : Session S D} {t : Nat} (h : s.Ready t) (hfull : s.size ≤ t + 1) :
    ∀ k < s.size, (s.pending (t + 1)).history.cloud k KeypointTrack.denseClouds
      = .ok (s.denseBack (t + 1) k) := by
  intro k hk
  exact h.windowed.denseBack_eq (by rw [Nat.min_eq_right hfull]; exact hk)

/-- Publishing the poses of a full window, or not. -/
theorem Ready.publish {s : Session S D} {t : Nat} {poses : List (Pose D)} (h : s.Ready t)
    (hfull : s.size ≤ t + 1) (hlength : poses.length = s.size) :
    ((s.pending (t + 1)).located? poses = none ∧
        (s.pending (t + 1)).publish s.settings poses = (s.pending (t + 1), .error .invalidPose)) ∨
      ∃ pose new, (s.pending (t + 1)).located? poses = some pose ∧
        (s.pending (t + 1)).publish s.settings poses = (new, .ok ()) ∧
        KeypointTrack.Published s.settings (s.denseBack (t + 1)) poses pose (s.pending (t + 1)) new := by
  obtain ⟨_, _, hradius⟩ := KeypointSettings.checks_of_validate s.fresh.validated
  cases hlocated : (s.pending (t + 1)).located? poses with
  | none =>
    refine .inl ⟨rfl, KeypointTrack.publish_refused ?_ (h.clouds hfull 0 s.size_pos) hlocated⟩
    exact List.ne_nil_of_length_pos (hlength ▸ s.size_pos)
  | some pose =>
    have hclouds : ∀ k < poses.length, _ := hlength ▸ h.clouds hfull
    obtain ⟨new, hpublish, hpublished⟩ := KeypointTrack.publish_located hradius hclouds hlocated
    exact .inr ⟨pose, new, rfl, hpublish, hpublished⟩

theorem Ready.step_of_estimated {s : Session S D} {t : Nat} (h : s.Ready t) (hfull : s.size ≤ t + 1)
    (hnew : KeypointChain.Estimated (s.perceived (t + 1)) (s.chain (t + 1)))
    (houtcome : s.accepted? (t + 1) = (s.perceived (t + 1)).accepted? → s.Outcome t) : s.Step t :=
  ⟨h.inStep_of_estimated hfull hnew, houtcome (h.accepted?_eq hfull hnew),
    h.estimating_of_estimated hfull hnew⟩

/-- A run that does no more than run its estimator is quiet, whatever its result. -/
theorem Ready.quiet_of_locate {s : Session S D} {t : Nat} {result : Except Error Unit} (h : s.Ready t)
    (hlocate : (s.perceived (t + 1)).locate = ((s.perceived (t + 1)).estimating, result)) :
    KeypointChain.Estimated (s.perceived (t + 1)) (s.chain (t + 1)) ∧ s.result (t + 1) = result ∧
      Quiet (s.track t) (s.track (t + 1)) := by
  have hchain := h.chain_eq.trans (congrArg Prod.fst hlocate)
  have htrack : s.track (t + 1) = s.pending (t + 1) :=
    (congrArg KeypointChain.track hchain).trans h.track_estimating
  refine ⟨?_, h.result_eq.trans (congrArg Prod.snd hlocate), ?_⟩
  · rw [hchain]
    exact KeypointChain.estimated_estimating _
  · rw [htrack]
    exact h.quiet

/-- Once the window is full. -/
theorem Ready.step_full {s : Session S D} {t : Nat} (h : s.Ready t) (hfull : s.size ≤ t + 1) : s.Step t := by
  have hnot : ¬ (s.perceived (t + 1)).track.seen + 1 < (s.perceived (t + 1)).settings.windowSize := by
    rw [h.seen_eq, h.size_eq]
    omega
  have hpos : 0 < (s.perceived (t + 1)).settings.windowSize := h.size_eq.symm ▸ s.size_pos
  cases haccepted : (s.perceived (t + 1)).accepted? with
  | none =>
    obtain ⟨hnew, hresult, hquiet⟩ := h.quiet_of_locate (KeypointChain.locate_unaccepted hpos hnot haccepted)
    apply h.step_of_estimated hfull hnew
    intro heq
    exact .unlocated (heq.trans haccepted) hresult hquiet
  | some poses =>
    have hlength : poses.length = s.size := by
      rw [← h.size_eq]
      exact (length_of_acceptedPoses? haccepted).2
    have hlocate := KeypointChain.locate_accepted hpos hnot haccepted
    rw [h.track_estimating, h.windowed.settings_eq] at hlocate
    obtain ⟨hnone, hrefused⟩ | ⟨pose, new, hsome, hpublish, hpublished⟩ := h.publish hfull hlength
    · -- a refusal leaves the pending track, so the chain is the one before publishing
      rw [hrefused, ← h.track_estimating] at hlocate
      obtain ⟨hnew, hresult, hquiet⟩ := h.quiet_of_locate hlocate
      apply h.step_of_estimated hfull hnew
      intro heq
      exact .refused poses (heq.trans haccepted) hnone hresult hquiet
    · rw [hpublish] at hlocate
      have hchain := h.chain_eq.trans (congrArg Prod.fst hlocate)
      have htrack : s.track (t + 1) = new := congrArg KeypointChain.track hchain
      have hnew : KeypointChain.Estimated (s.perceived (t + 1)) (s.chain (t + 1)) := by
        rw [hchain]
        rw [← h.track_estimating] at hpublished
        exact KeypointChain.estimated_published hpublished
      apply h.step_of_estimated hfull hnew
      intro heq
      refine .located poses pose (heq.trans haccepted) hsome (h.result_eq.trans (congrArg Prod.snd hlocate)) ?_
      rw [htrack]
      exact hpublished

/-- **One run keeps step**, and ends in one of the three ways. -/
theorem InStep.step {s : Session S D} {t : Nat} (h : s.InStep t) : s.Step t := by
  rcases Nat.lt_or_ge (t + 1) s.size with hwait | hfull
  · exact h.ready.step_waiting hwait
  · exact h.ready.step_full hfull

/-! ## All runs -/

theorem inStep_zero (s : Session S D) : s.InStep 0 := by
  have htrack : (s.chain 0).track = .initial s.settings := s.track_zero
  -- without a run no camera is there, and every pair is as in a filled table
  have hvacant : s.tableAt 0 = fun _ _ => #[] := by
    funext a b
    exact if_neg (Nat.not_lt_zero b)
  refine ⟨⟨rfl, ?_, ?_⟩, ?_⟩
  · rw [htrack, hvacant]
    exact PairTable.holds_filled s.fits #[]
  · rw [htrack]
    exact s.shown_initial
  · rw [s.track_zero, Nat.zero_min]
    rfl

/-- **Every run begins in step**, whatever the runs before it came to. -/
theorem inStep (s : Session S D) (t : Nat) : s.InStep t := by
  induction t with
  | zero => exact s.inStep_zero
  | succ t ih => exact ih.step.inStep

/-- **Every run ends in one of the three ways.** -/
theorem outcome (s : Session S D) (t : Nat) : s.Outcome t := (s.inStep t).step.outcome

/-! ### What is read from a window -/

/-- The window after some runs, as its entries are asked for: by steps back from the newest run. -/
structure Aligned (s : Session S D) (t : Nat) : Prop where
  /-- Every ring holds as many entries as there were runs, up to the size of the window. -/
  counts : (s.track t).history.images.count = min t s.size ∧
    (s.track t).history.featureRings.count KeypointTrack.leftFeatures = min t s.size ∧
    (s.track t).history.featureRings.count KeypointTrack.rightFeatures = min t s.size ∧
    (s.track t).history.matchRings.count KeypointTrack.leftRight = min t s.size ∧
    (s.track t).history.cloudRings.count KeypointTrack.denseClouds = min t s.size ∧
    (s.track t).history.cloudRings.count KeypointTrack.keypointClouds = min t s.size
  /-- The entries some steps back are the products of one run. -/
  entries : ∀ k < min t s.size,
    (s.track t).history.leftImage k = .ok (s.pairs (t - k)).1 ∧
    (s.track t).history.rightImage k = .ok (s.pairs (t - k)).2 ∧
    (s.track t).history.features k KeypointTrack.leftFeatures = .ok (s.observation (t - k)).leftFeatures ∧
    (s.track t).history.features k KeypointTrack.rightFeatures = .ok (s.observation (t - k)).rightFeatures ∧
    (s.track t).history.matchesBack k KeypointTrack.leftRight = .ok (s.observation (t - k)).leftRight ∧
    (s.track t).history.cloud k KeypointTrack.denseClouds = .ok (s.observation (t - k)).dense ∧
    (s.track t).history.cloud k KeypointTrack.keypointClouds = .ok (s.observation (t - k)).keypoints
  /-- A pair of runs has the correspondences from the temporal matches that the later one computed. -/
  linked : ∀ a b, a < b → b < s.size → b < t → ∃ left right,
    (s.rematches (t - a)).lookup (t - b) = some (left, right) ∧
    (s.track t).table.get a b = .ok (s.links (t - a) (t - b) left right)
  /-- Where there was no run yet there are no correspondences. -/
  vacant : ∀ a b, a < b → b < s.size → t ≤ b → (s.track t).table.get a b = .ok #[]

theorem linked_eq {s : Session S D} {current past : Nat} (h : past ∈ s.earlier current) :
    ∃ left right, (s.rematches current).lookup past = some (left, right) ∧
      s.linked current past = s.links current past left right := by
  obtain ⟨left, right, hfound⟩ := exists_rematch h
  refine ⟨left, right, hfound, ?_⟩
  unfold Session.linked
  rw [hfound]

theorem Windowed.aligned {s : Session S D} {t : Nat} (h : s.Windowed t (s.chain t)) : s.Aligned t := by
  obtain ⟨_, htable, hshown⟩ := h
  have hlength : ∀ {β : Type} (f : Nat → β), ((s.recent t).map f).length = min t s.size := by
    intro β f
    rw [List.length_map, length_recent]
  refine ⟨⟨?_, ?_, ?_, ?_, ?_, ?_⟩, ?_, ?_, ?_⟩
  · exact hshown.images.count_eq.trans (hlength _)
  · exact hshown.leftFeatures.count_eq.trans (hlength _)
  · exact hshown.rightFeatures.count_eq.trans (hlength _)
  · exact hshown.leftRight.count_eq.trans (hlength _)
  · exact hshown.dense.count_eq.trans (hlength _)
  · exact hshown.keypoints.count_eq.trans (hlength _)
  · intro k hk
    have himages : ∀ what, (s.track t).history.images.entry what k = .ok (s.pairs (t - k)) :=
      fun what => hshown.images.entry_eq what (getElem?_map_recent _ hk)
    refine ⟨?_, ?_, ?_, ?_, ?_, ?_, ?_⟩
    · exact congrArg (Prod.fst <$> ·) (himages .leftImage)
    · exact congrArg (Prod.snd <$> ·) (himages .rightImage)
    · exact hshown.leftFeatures.entry_eq .features (getElem?_map_recent _ hk)
    · exact hshown.rightFeatures.entry_eq .features (getElem?_map_recent _ hk)
    · exact hshown.leftRight.entry_eq .correspondences (getElem?_map_recent _ hk)
    · exact hshown.dense.entry_eq .pointCloud (getElem?_map_recent _ hk)
    · exact hshown.keypoints.entry_eq .pointCloud (getElem?_map_recent _ hk)
  · intro a b hab hb hbt
    -- fewer than `size` steps apart, the older run was in the window of the newer one
    have hmem : t - b ∈ s.earlier (t - a) := by
      rw [mem_earlier]
      omega
    obtain ⟨left, right, hfound, hlinked⟩ := linked_eq hmem
    refine ⟨left, right, hfound, (htable.get_eq a b hab hb).trans ?_⟩
    unfold tableAt
    rw [if_pos hbt, hlinked]
  · intro a b hab hb htb
    refine (htable.get_eq a b hab hb).trans ?_
    unfold tableAt
    rw [if_neg (Nat.not_lt_of_le htb)]

/-- **The window is aligned with the runs.** After any number of runs the rings of the history and the table
of correspondences show the products of the same runs, and that table is what the estimator is run on. -/
theorem window_alignment (s : Session S D) (t : Nat) : s.Aligned t ∧ s.Estimating t :=
  ⟨(s.inStep t).windowed.aligned, (s.inStep t).step.estimating⟩

end Session

end StereoMapping
