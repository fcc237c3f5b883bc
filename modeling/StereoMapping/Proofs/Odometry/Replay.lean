import StereoMapping.Proofs.Odometry.Outcome

/-!
# `Proofs.Odometry.Replay` — the map is the replay of the successes

What a session publishes, and what it adds to its map, is determined by the runs that located their pairs: the
first of them adds its whole window, each later one its own cloud. `insertions` writes that down as a list, and
replaying the list from an empty map gives the map. A run that does not locate its pair leaves what was
published, and the map, as they are.

## Contents
- `successes`: the runs that located their pairs; `insertions`: what was added to the map, in order.
- `located_of_success`, `quiet_of_failure`: a run by its success.
- `Standing`: what is published from the first success on; `publication_all_or_nothing`.
- `replay`, `map_is_replay`: the map from the list, and the runs that are in it.
-/

namespace StereoMapping
namespace Session

variable {S D : Type} [Scalar S] [Scalar D] [Precision S D]

/-! ## Successes -/

/-- The runs that located their pairs. -/
def successes (s : Session S D) (t : Nat) : List Nat := (List.range' 1 t).filter s.success

theorem successes_succ {s : Session S D} {t : Nat} :
    s.successes (t + 1) = s.successes t ++ if s.success (t + 1) then [t + 1] else [] := by
  unfold successes
  rw [List.range'_1_concat, List.filter_append, Nat.add_comm 1 t, List.filter_singleton, Bool.cond_eq_ite]

theorem mem_successes {s : Session S D} {t j : Nat} :
    j ∈ s.successes t ↔ 0 < j ∧ j ≤ t ∧ s.success j = true := by
  unfold successes
  rw [List.mem_filter, List.mem_range'_1, and_assoc, Nat.add_comm 1 t, Nat.lt_succ_iff]
  exact Iff.rfl

theorem pairwise_successes (s : Session S D) (t : Nat) : (s.successes t).Pairwise (· < ·) :=
  List.Pairwise.filter _ List.pairwise_lt_range'

theorem success_zero (s : Session S D) : s.success 0 = false := by
  unfold success
  rw [s.track_zero]
  rfl

/-! ### A run by its success -/

theorem quiet_pending (s : Session S D) (t : Nat) : Quiet (s.track t) (s.pending (t + 1)) :=
  (s.inStep t).ready.quiet

/-- A run that did not locate its pair published nothing. -/
theorem quiet_of_failure {s : Session S D} {t : Nat} (h : s.success (t + 1) = false) :
    Quiet (s.track t) (s.track (t + 1)) := by
  cases s.outcome t with
  | unlocated accepted result quiet => exact quiet
  | refused poses accepted located result quiet => exact quiet
  | located poses pose accepted located result published =>
    have htrue : s.success (t + 1) = true := congrArg KeypointTrack.success published.track_eq
    rw [h] at htrue
    cases htrue

/-- A run that did located it by the poses of an accepted estimate, and published that. -/
theorem located_of_success {s : Session S D} {t : Nat} (h : s.success (t + 1) = true) :
    ∃ poses pose, s.accepted? (t + 1) = some poses ∧ (s.pending (t + 1)).located? poses = some pose ∧
      s.result (t + 1) = .ok () ∧
      KeypointTrack.Published s.settings (s.denseBack (t + 1)) poses pose (s.pending (t + 1))
        (s.track (t + 1)) := by
  cases s.outcome t with
  | unlocated accepted result quiet =>
    have hfalse : s.success (t + 1) = false := quiet.success_eq
    rw [h] at hfalse
    cases hfalse
  | refused poses accepted located result quiet =>
    have hfalse : s.success (t + 1) = false := quiet.success_eq
    rw [h] at hfalse
    cases hfalse
  | located poses pose accepted located result published =>
    exact ⟨poses, pose, accepted, located, result, published⟩

/-- No pair is located before the window is full. -/
theorem size_le_of_success {s : Session S D} {t : Nat} (h : s.success t = true) : s.size ≤ t := by
  cases t with
  | zero =>
    rw [s.success_zero] at h
    cases h
  | succ t =>
    obtain ⟨poses, _, haccepted, _⟩ := located_of_success h
    by_contra hwait
    rw [accepted?_of_waiting (Nat.lt_of_not_le hwait)] at haccepted
    cases haccepted

/-- Accepted poses are those of the estimate, one for each camera of the window. -/
theorem estimate_of_accepted {s : Session S D} {t : Nat} {poses : List (Pose D)}
    (h : s.accepted? t = some poses) :
    (s.estimate t).poses = poses ∧ poses.length = s.size := by
  unfold accepted? at h
  split at h
  · exact length_of_acceptedPoses? h
  · cases h

/-! ## What is published -/

/-- The map is started by the first success. -/
theorem mapStarted_iff {s : Session S D} {t : Nat} :
    (s.track t).mapStarted = true ↔ s.successes t ≠ [] := by
  induction t with
  | zero =>
    rw [s.track_zero]
    exact ⟨fun h => absurd h Bool.false_ne_true, fun h => absurd rfl h⟩
  | succ t ih =>
    rw [successes_succ]
    cases hsuccess : s.success (t + 1) with
    | false =>
      rw [(quiet_of_failure hsuccess).mapStarted_eq, ih, if_neg Bool.false_ne_true, List.append_nil]
    | true =>
      obtain ⟨_, _, _, _, _, hpublished⟩ := located_of_success hsuccess
      have hstarted : (s.track (t + 1)).mapStarted = true :=
        congrArg KeypointTrack.mapStarted hpublished.track_eq
      rw [if_pos rfl]
      exact ⟨fun _ => List.append_ne_nil_of_right_ne_nil _ (List.cons_ne_nil _ _), fun _ => hstarted⟩

/-- What is published from the first success on. -/
structure Standing (s : Session S D) (t : Nat) : Prop where
  pose_valid : (s.track t).pose.isValid = true
  lastPose_eq : (s.track t).map.lastPose = (s.track t).pose
  scene_eq : (s.track t).map.scene s.settings.searchRadius = .ok (s.track t).cloud

theorem Standing.of_quiet {s : Session S D} {t : Nat} (h : s.Standing t)
    (hquiet : Quiet (s.track t) (s.track (t + 1))) : s.Standing (t + 1) := by
  obtain ⟨hvalid, hlast, hscene⟩ := h
  refine ⟨?_, ?_, ?_⟩
  · rw [hquiet.pose_eq]
    exact hvalid
  · rw [hquiet.map_eq, hquiet.pose_eq]
    exact hlast
  · rw [hquiet.map_eq, hquiet.cloud_eq]
    exact hscene

theorem standing_of_success {s : Session S D} {t : Nat} (h : s.success (t + 1) = true) :
    s.Standing (t + 1) := by
  obtain ⟨poses, pose, _, hlocated, _, hpublished⟩ := located_of_success h
  have hpose : (s.track (t + 1)).pose = pose := congrArg KeypointTrack.pose hpublished.track_eq
  refine ⟨?_, ?_, ?_⟩
  · rw [hpose]
    exact KeypointTrack.isValid_of_located? hlocated
  · rw [hpose]
    exact hpublished.lastPose_eq
  · unfold VoxelMap.scene
    rw [hpublished.lastPose_eq]
    exact hpublished.scene_eq

theorem standing_of_successes {s : Session S D} {t : Nat} (h : s.successes t ≠ []) : s.Standing t := by
  induction t with
  | zero => exact absurd rfl h
  | succ t ih =>
    cases hsuccess : s.success (t + 1) with
    | true => exact standing_of_success hsuccess
    | false =>
      rw [successes_succ, hsuccess, if_neg Bool.false_ne_true, List.append_nil] at h
      exact (ih h).of_quiet (quiet_of_failure hsuccess)

/-- A run ends well, or its poses were refused. -/
theorem result_eq (s : Session S D) (t : Nat) :
    s.result (t + 1) = .ok () ∨ s.result (t + 1) = .error .invalidPose := by
  cases s.outcome t with
  | unlocated accepted result quiet => exact .inl result
  | refused poses accepted located result quiet => exact .inr result
  | located poses pose accepted located result published => exact .inl result

/-- **A run publishes all or nothing.** If it did not locate its pair, then the pose, the cloud, the whole map
and the mark that the map was started are what they were, even if it was refused. If it did, it was not
refused. After any success the published pose is valid, it is the last one of the map, and the published cloud
is the part of the map around it. -/
theorem publication_all_or_nothing (s : Session S D) (t : Nat) :
    (s.success (t + 1) = false →
      (s.track (t + 1)).pose = (s.track t).pose ∧ (s.track (t + 1)).cloud = (s.track t).cloud ∧
      (s.track (t + 1)).map = (s.track t).map ∧ (s.track (t + 1)).mapStarted = (s.track t).mapStarted) ∧
    (s.result (t + 1) = .ok () ∨ s.result (t + 1) = .error .invalidPose) ∧
    (s.success (t + 1) = true → s.result (t + 1) = .ok ()) ∧
    ((∃ j ≤ t, s.success j = true) →
      (s.track t).pose.isValid = true ∧ (s.track t).map.lastPose = (s.track t).pose ∧
      (s.track t).map.scene s.settings.searchRadius = .ok (s.track t).cloud) := by
  refine ⟨?_, s.result_eq t, ?_, ?_⟩
  · intro hfailure
    have hquiet := quiet_of_failure hfailure
    exact ⟨hquiet.pose_eq, hquiet.cloud_eq, hquiet.map_eq, hquiet.mapStarted_eq⟩
  · intro hsuccess
    obtain ⟨_, _, _, _, hresult, _⟩ := located_of_success hsuccess
    exact hresult
  · rintro ⟨j, hj, hsuccess⟩
    have hpos : 0 < j := Nat.lt_of_lt_of_le s.size_pos (size_le_of_success hsuccess)
    have hmem : j ∈ s.successes t := mem_successes.mpr ⟨hpos, hj, hsuccess⟩
    obtain ⟨hvalid, hlast, hscene⟩ := standing_of_successes (List.ne_nil_of_mem hmem)
    exact ⟨hvalid, hlast, hscene⟩

/-! ## The map -/

/-- The runs of a window with the poses estimated for them, oldest first. -/
def windowOf (s : Session S D) (t : Nat) : List (Nat × Pose D) :=
  (s.estimate t).poses.zipIdx.reverse.map fun (pose, steps) => (t - steps, pose)

/-- What was added to the map, in order: the run of each cloud and the pose it was added at. The first success
adds its window, each later one its own cloud at the pose it published. -/
def insertions (s : Session S D) (t : Nat) : List (Nat × Pose D) :=
  match s.successes t with
  | [] => []
  | first :: later => s.windowOf first ++ later.map fun j => (j, (s.track j).pose)

/-- The dense clouds of runs, each with a pose. -/
def clouds (s : Session S D) (entries : List (Nat × Pose D)) : List (Cloud S × Pose D) :=
  entries.map fun (run, pose) => ((s.observation run).dense, pose)

theorem insertions_of_none {s : Session S D} {t : Nat} (h : s.successes t = []) : s.insertions t = [] := by
  unfold insertions
  rw [h]

theorem insertions_failure {s : Session S D} {t : Nat} (h : s.success (t + 1) = false) :
    s.insertions (t + 1) = s.insertions t := by
  have hsame : s.successes (t + 1) = s.successes t := by
    rw [successes_succ, h, if_neg Bool.false_ne_true, List.append_nil]
  unfold insertions
  rw [hsame]

theorem insertions_first {s : Session S D} {t : Nat} (h : s.success (t + 1) = true)
    (hnone : s.successes t = []) : s.insertions (t + 1) = s.windowOf (t + 1) := by
  unfold insertions
  rw [successes_succ, hnone, h, if_pos rfl]
  exact List.append_nil _

theorem insertions_later {s : Session S D} {t : Nat} (h : s.success (t + 1) = true)
    (hsome : s.successes t ≠ []) :
    s.insertions (t + 1) = s.insertions t ++ [(t + 1, (s.track (t + 1)).pose)] := by
  obtain ⟨first, later, hcons⟩ := List.exists_cons_of_ne_nil hsome
  unfold insertions
  rw [successes_succ, hcons, h, if_pos rfl]
  show s.windowOf first ++ (later ++ [t + 1]).map _ = _
  rw [List.map_append, ← List.append_assoc]
  rfl

/-- What a success adds to the map is what it adds to the list. -/
theorem clouds_additions {s : Session S D} {t : Nat} {poses : List (Pose D)} {pose : Pose D}
    (h : s.success (t + 1) = true) (haccepted : s.accepted? (t + 1) = some poses)
    (hpublished : KeypointTrack.Published s.settings (s.denseBack (t + 1)) poses pose (s.pending (t + 1))
      (s.track (t + 1))) :
    s.clouds (s.insertions (t + 1)) = s.clouds (s.insertions t) ++
      ((s.pending (t + 1)).additions poses pose).map fun entry => (s.denseBack (t + 1) entry.2, entry.1) := by
  have hpose : (s.track (t + 1)).pose = pose := congrArg KeypointTrack.pose hpublished.track_eq
  have hstarted : (s.pending (t + 1)).mapStarted = true ↔ s.successes t ≠ [] := by
    rw [(s.quiet_pending t).mapStarted_eq]
    exact mapStarted_iff
  unfold KeypointTrack.additions
  by_cases hnone : s.successes t = []
  · -- the additions go from the oldest camera to the newest, as the window does
    rw [if_neg fun hc => hstarted.mp hc hnone, insertions_first h hnone, insertions_of_none hnone]
    unfold windowOf
    rw [(estimate_of_accepted haccepted).1]
    unfold clouds
    rw [List.map_map]
    rfl
  · rw [if_pos (hstarted.mpr hnone), insertions_later h hnone, hpose]
    unfold clouds
    rw [List.map_append]
    rfl

/-- **The map is the replay of the list**, from the empty map that the session began with. -/
theorem replay (s : Session S D) (t : Nat) :
    (s.track 0).map.addClouds (s.clouds (s.insertions t)) = .ok (s.track t).map := by
  induction t with
  | zero => rfl
  | succ t ih =>
    cases hsuccess : s.success (t + 1) with
    | false =>
      rw [insertions_failure hsuccess, (quiet_of_failure hsuccess).map_eq]
      exact ih
    | true =>
      obtain ⟨poses, pose, haccepted, _, _, hpublished⟩ := located_of_success hsuccess
      rw [clouds_additions hsuccess haccepted hpublished, VoxelMap.addClouds_append ih,
        ← (s.quiet_pending t).map_eq]
      exact hpublished.map_eq

/-! ### The runs in the map -/

theorem successes_of_waiting {s : Session S D} {t : Nat} (h : t < s.size) : s.successes t = [] := by
  rw [List.eq_nil_iff_forall_not_mem]
  intro j hj
  obtain ⟨_, hle, hsuccess⟩ := mem_successes.mp hj
  have := size_le_of_success hsuccess
  omega

/-- A window has each of its runs once, oldest first. -/
theorem map_fst_windowOf {s : Session S D} {t : Nat} (h : s.success t = true) :
    (s.windowOf t).map Prod.fst = (List.range s.size).reverse.map fun steps => t - steps := by
  obtain ⟨j, rfl⟩ : ∃ j, t = j + 1 :=
    Nat.exists_eq_succ_of_ne_zero (Nat.ne_of_gt (Nat.lt_of_lt_of_le s.size_pos (size_le_of_success h)))
  obtain ⟨poses, _, haccepted, _⟩ := located_of_success h
  obtain ⟨hposes, hlength⟩ := estimate_of_accepted haccepted
  have hsteps : poses.zipIdx.map Prod.snd = List.range s.size := by
    rw [List.zipIdx_map_snd, hlength, List.range_eq_range']
  unfold windowOf
  rw [hposes, List.map_map, ← hsteps, ← List.map_reverse, List.map_map]
  rfl

theorem runs_windowOf {s : Session S D} {t : Nat} (h : s.success t = true) :
    (∀ entry ∈ s.windowOf t, 0 < entry.1 ∧ entry.1 ≤ t) ∧
      (s.windowOf t).Pairwise fun a b => a.1 < b.1 := by
  have hfull := size_le_of_success h
  have hruns := map_fst_windowOf h
  constructor
  · intro entry hentry
    have hrun : entry.1 ∈ (s.windowOf t).map Prod.fst := List.mem_map_of_mem hentry
    rw [hruns, List.mem_map] at hrun
    obtain ⟨steps, hsteps, hrun⟩ := hrun
    rw [List.mem_reverse, List.mem_range] at hsteps
    omega
  · have hlt : ((s.windowOf t).map Prod.fst).Pairwise (· < ·) := by
      rw [hruns, List.pairwise_map, List.pairwise_reverse]
      -- the steps of a window are smaller than the number of its last run
      refine List.Pairwise.imp_of_mem ?_ List.pairwise_lt_range
      intro a b _ hb hab
      rw [List.mem_range] at hb
      omega
    exact List.pairwise_map.mp hlt

/-- **A run is in the list at most once**, and the list is in the order of the runs. -/
theorem runs_insertions (s : Session S D) (t : Nat) :
    (∀ entry ∈ s.insertions t, 0 < entry.1 ∧ entry.1 ≤ t) ∧
      (s.insertions t).Pairwise fun a b => a.1 < b.1 := by
  -- the bound is carried along, since it puts a new run after all that are in the list
  induction t with
  | zero => exact ⟨fun entry hentry => absurd hentry List.not_mem_nil, List.Pairwise.nil⟩
  | succ t ih =>
    cases hsuccess : s.success (t + 1) with
    | false =>
      rw [insertions_failure hsuccess]
      refine ⟨?_, ih.2⟩
      intro entry hentry
      exact ⟨(ih.1 entry hentry).1, Nat.le_succ_of_le (ih.1 entry hentry).2⟩
    | true =>
      by_cases hnone : s.successes t = []
      · rw [insertions_first hsuccess hnone]
        exact runs_windowOf hsuccess
      · rw [insertions_later hsuccess hnone]
        constructor
        · intro entry hentry
          rcases List.mem_append.mp hentry with hold | hnew
          · exact ⟨(ih.1 entry hold).1, Nat.le_succ_of_le (ih.1 entry hold).2⟩
          · rw [List.mem_singleton] at hnew
            subst hnew
            exact ⟨Nat.succ_pos t, Nat.le_refl _⟩
        · rw [List.pairwise_append]
          refine ⟨ih.2, List.pairwise_singleton _ _, ?_⟩
          intro entry hold last hlast
          rw [List.mem_singleton] at hlast
          subst hlast
          exact Nat.lt_succ_of_le (ih.1 entry hold).2

/-- The first success is the least. -/
theorem first_le {s : Session S D} {t first i : Nat} {later : List Nat} (h : s.successes t = first :: later)
    (hi : i ∈ s.successes t) : first ≤ i := by
  have hsorted := s.pairwise_successes t
  rw [h, List.pairwise_cons] at hsorted
  rw [h] at hi
  rcases List.mem_cons.mp hi with rfl | hlater
  · exact Nat.le_refl _
  · exact Nat.le_of_lt (hsorted.1 i hlater)

/-- A run that failed after a success is not in the list, whatever comes later. -/
theorem not_mem_insertions {s : Session S D} {i j t : Nat} (hi : s.success i = true) (hij : i < j)
    (hj : s.success j = false) : ∀ entry ∈ s.insertions t, entry.1 ≠ j := by
  have hpos : 0 < i := Nat.lt_of_lt_of_le s.size_pos (size_le_of_success hi)
  rintro entry hentry rfl
  have hle : entry.1 ≤ t := ((s.runs_insertions t).1 entry hentry).2
  unfold insertions at hentry
  split at hentry
  · exact absurd hentry List.not_mem_nil
  · rename_i first later hsuccesses
    rcases List.mem_append.mp hentry with hwindow | hlater
    · -- the first window ends with the first success, which is no later than `i`
      have hfirst : first ∈ s.successes t := hsuccesses ▸ List.mem_cons_self
      have hsuccess : s.success first = true := (mem_successes.mp hfirst).2.2
      have hin : entry.1 ≤ first := ((runs_windowOf hsuccess).1 entry hwindow).2
      have hmem : i ∈ s.successes t :=
        mem_successes.mpr ⟨hpos, Nat.le_trans (Nat.le_of_lt hij) hle, hi⟩
      exact absurd (first_le hsuccesses hmem) (Nat.not_le_of_lt (Nat.lt_of_lt_of_le hij hin))
    · obtain ⟨k, hk, rfl⟩ := List.mem_map.mp hlater
      have hmem : k ∈ s.successes t := hsuccesses ▸ List.mem_cons_of_mem _ hk
      rw [(mem_successes.mp hmem).2.2] at hj
      cases hj

/-- What is published before the window is full. -/
theorem published_of_waiting {s : Session S D} {t : Nat} (h : t < s.size) :
    (s.track t).pose = .identity ∧ (s.track t).cloud = .empty ∧ (s.track t).map = (s.track 0).map := by
  induction t with
  | zero =>
    rw [s.track_zero]
    exact ⟨rfl, rfl, rfl⟩
  | succ t ih =>
    have hfailure : s.success (t + 1) = false := by
      rw [Bool.eq_false_iff]
      exact fun hc => absurd (size_le_of_success hc) (Nat.not_le_of_lt h)
    have hquiet := quiet_of_failure hfailure
    rw [hquiet.pose_eq, hquiet.cloud_eq, hquiet.map_eq]
    exact ih (Nat.lt_of_succ_lt h)

/-- **The map is the replay of the successes.** From an empty map of the configured resolution and policy, add
the window of the first success, oldest cloud first and each at the pose estimated for it, then the cloud of
each later success at the pose that it published: that is the map. No run is added twice, nothing is added or
published before the window is full, and a run that fails after the first success is never added. -/
theorem map_is_replay (s : Session S D) (t : Nat) :
    (∃ empty, VoxelMap.create s.settings.resolution s.settings.fusionPolicy = .ok empty ∧
      empty.addClouds (s.clouds (s.insertions t)) = .ok (s.track t).map) ∧
    ((∀ entry ∈ s.insertions t, 0 < entry.1 ∧ entry.1 ≤ t) ∧
      (s.insertions t).Pairwise fun a b => a.1 < b.1) ∧
    (∀ j ∈ s.successes t, s.size ≤ j ∧
      (s.windowOf j).map Prod.fst = (List.range s.size).reverse.map fun steps => j - steps) ∧
    (t < s.size → s.insertions t = [] ∧ s.success t = false ∧
      (s.track t).pose = .identity ∧ (s.track t).cloud = .empty) ∧
    ∀ i j, s.success i = true → i < j → s.success j = false → ∀ entry ∈ s.insertions t, entry.1 ≠ j := by
  refine ⟨?_, s.runs_insertions t, ?_, ?_, ?_⟩
  · have hreplay := s.replay t
    rw [s.track_zero] at hreplay
    exact ⟨_, KeypointTrack.create_map s.fresh.validated, hreplay⟩
  · intro j hj
    have hsuccess : s.success j = true := (mem_successes.mp hj).2.2
    exact ⟨size_le_of_success hsuccess, map_fst_windowOf hsuccess⟩
  · intro hwait
    have hfailure : s.success t = false := by
      rw [Bool.eq_false_iff]
      exact fun hc => absurd (size_le_of_success hc) (Nat.not_le_of_lt hwait)
    obtain ⟨hpose, hcloud, _⟩ := published_of_waiting hwait
    exact ⟨insertions_of_none (successes_of_waiting hwait), hfailure, hpose, hcloud⟩
  · intro i j hi hij hj
    exact not_mem_insertions hi hij hj

end Session
end StereoMapping
